import TableApi.Dialect
import TableApi.Proofs.Text.Chars

/-!
# How a database reads the signs of a text

A text of SQL means different things inside and outside its quotes. Two layers:

* `Quote` and `Dialect.quote?` — the quotes of a dialect, those of string literals and those of
  identifiers, and where a backslash inside takes the next character with it.
* `marks?` — the scanner. It tells every character of a text that stands **in** quotes (the quotes
  themselves included) from one that stands outside, and gives nothing if a quote is left open. A
  closing quote that is doubled stands for itself. Comments are not known to it.

The rest says how texts put side by side are read: each on its own, as long as the second one does
not start with a quote that could double the last one of the first.
-/

namespace TableApi

/-- **A quote.** -/
inductive Quote
  | single
  | double
  /-- The grave accent. -/
  | grave
  /-- Square brackets. -/
  | bracket
deriving DecidableEq, Repr

/-- The character that closes a quote. -/
def Quote.close : Quote → Char
  | .single => '\''
  | .double => '"'
  | .grave => '\x60'
  | .bracket => ']'

namespace Dialect

/-- The quote that a character opens: string literals and quoted identifiers. -/
def quote? (d : Dialect) (c : Char) : Option Quote :=
  if c = '\'' then some .single
  else if c = '"' then some .double
  else if c = '\x60' ∧ (d = .mysql ∨ d = .sqlite) then some .grave
  else if c = '[' ∧ (d = .mssql ∨ d = .sqlite) then some .bracket
  else Option.none

/-- In this quote a backslash takes the next character with it. -/
def escapes (d : Dialect) (q : Quote) : Bool :=
  d == .mysql && (q == .single || q == .double)

end Dialect

namespace Sql

/-! ## The scanner -/

/-- Where the next character stands. -/
inductive Mode
  | code
  | quoted (q : Quote)
  /-- In a quote, right after a backslash that escapes. -/
  | escaped (q : Quote)
  /-- After a closing quote, which is the first half of a doubled one if another follows. -/
  | closing (q : Quote)
deriving DecidableEq, Repr

/-- **A character as it is read.** -/
inductive Mark
  /-- A character outside quotes. -/
  | code (c : Char)
  /-- A character in quotes, or a quote. -/
  | quoted (c : Char)
deriving DecidableEq, Repr

/-- The character of a mark. -/
def Mark.char : Mark → Char
  | .code c | .quoted c => c

namespace Mode

/-- A text may end here: no quote is open. -/
def isEnd : Mode → Bool
  | .code | .closing _ => true
  | .quoted _ | .escaped _ => false

/-- Where a character after code leads. -/
def afterCode (d : Dialect) (c : Char) : Mode :=
  (d.quote? c).elim .code .quoted

/-- A character after code as it is read. -/
def markCode (d : Dialect) (c : Char) : Mark :=
  (d.quote? c).elim (.code c) fun _ => .quoted c

/-- Where the character after this one stands. -/
def after (d : Dialect) (m : Mode) (c : Char) : Mode :=
  match m with
  | .code => afterCode d c
  | .quoted q =>
    if c = q.close then .closing q
    else if d.escapes q ∧ c = '\\' then .escaped q
    else .quoted q
  | .escaped q => .quoted q
  | .closing q => if c = q.close then .quoted q else afterCode d c

/-- This character as it is read. -/
def mark (d : Dialect) (m : Mode) (c : Char) : Mark :=
  match m with
  | .code => markCode d c
  | .quoted _ | .escaped _ => .quoted c
  | .closing q => if c = q.close then .quoted c else markCode d c

end Mode

/-- **The characters of a text as they are read**, if every quote is closed at its end. -/
def marks? (d : Dialect) (m : Mode) : List Char → Option (List Mark)
  | [] => if m.isEnd then some [] else none
  | c :: rest => (marks? d (m.after d c) rest).map (m.mark d c :: ·)

theorem map_char_marks {d : Dialect} {m : Mode} {s : List Char} {ms : List Mark}
    (h : marks? d m s = some ms) : ms.map Mark.char = s := by
  have hcode : ∀ c, (Mode.markCode d c).char = c := by
    intro c
    cases hq : d.quote? c <;> simp [Mode.markCode, hq, Mark.char]
  induction s generalizing m ms with
  | nil =>
    obtain ⟨-, rfl⟩ : m.isEnd = true ∧ [] = ms := by simpa [marks?] using h
    rfl
  | cons c s ih =>
    obtain ⟨ms', hms', rfl⟩ := Option.map_eq_some_iff.1 h
    have hc : (m.mark d c).char = c := by
      cases m with
      | code => exact hcode c
      | quoted q => rfl
      | escaped q => rfl
      | closing q =>
        by_cases hq : c = q.close
        · simp [Mode.mark, hq, Mark.char]
        · simpa only [Mode.mark, hq, if_false] using hcode c
    rw [List.map_cons, ih hms', hc]

/-! ## Texts side by side -/

/-- The signs that open or close a quote in some dialect. -/
def quoteSigns : List Char := ['\'', '"', '\x60', '[', ']']

@[simp] theorem close_mem_quoteSigns (q : Quote) : q.close ∈ quoteSigns := by
  cases q <;> decide

/-- A character that is no quote sign opens no quote. -/
theorem quote?_eq_none (d : Dialect) {c : Char} (h : c ∉ quoteSigns) : d.quote? c = none := by
  simp only [quoteSigns, List.mem_cons, List.not_mem_nil, or_false, not_or] at h
  obtain ⟨h1, h2, h3, h4, -⟩ := h
  simp [Dialect.quote?, h1, h2, h3, h4]

/-- The text does not start with a quote sign. -/
def Unquoted (t : List Char) : Prop :=
  ∀ c ∈ t.head?, c ∉ quoteSigns

theorem unquoted_cons {c : Char} (h : c ∉ quoteSigns) (t : List Char) : Unquoted (c :: t) := by
  intro x hx
  obtain rfl : c = x := by simpa using hx
  exact h

/-- Where a text may end, one that starts with no quote sign is read as after code. -/
theorem marks?_of_isEnd {d : Dialect} {m : Mode} (hm : m.isEnd = true) {t : List Char}
    (ht : Unquoted t) : marks? d m t = marks? d .code t := by
  cases m with
  | code => rfl
  | quoted q => simp [Mode.isEnd] at hm
  | escaped q => simp [Mode.isEnd] at hm
  | closing q =>
    cases t with
    | nil => rfl
    | cons c t =>
      have hc : c ≠ q.close := by
        rintro rfl
        exact ht q.close rfl (close_mem_quoteSigns q)
      simp only [marks?, Mode.after, Mode.mark, hc, if_false]

/-- A text that is read to its end leaves what follows it to be read on its own. -/
theorem marks?_append {d : Dialect} {m : Mode} {s : List Char} {ms : List Mark}
    (h : marks? d m s = some ms) {t : List Char} (ht : Unquoted t) :
    marks? d m (s ++ t) = (marks? d .code t).map (ms ++ ·) := by
  -- every character changes the mode, so the mode varies with the text
  induction s generalizing m ms with
  | nil =>
    obtain ⟨hm, rfl⟩ : m.isEnd = true ∧ [] = ms := by simpa [marks?] using h
    rw [List.nil_append, marks?_of_isEnd hm ht]
    simp
  | cons c s ih =>
    obtain ⟨ms', hms', rfl⟩ := Option.map_eq_some_iff.1 h
    rw [List.cons_append, marks?, ih hms', Option.map_map]
    rfl

/-- A text without quote signs is code, and what follows it is read on its own. -/
theorem marks?_plain_append (d : Dialect) {s : List Char} (h : ∀ c ∈ s, c ∉ quoteSigns)
    (t : List Char) : marks? d .code (s ++ t) = (marks? d .code t).map (s.map .code ++ ·) := by
  induction s with
  | nil => simp
  | cons c s ih =>
    have hc := quote?_eq_none d (h c (List.mem_cons_self ..))
    rw [List.cons_append, marks?, Mode.after, Mode.afterCode, Mode.mark, Mode.markCode, hc,
      Option.elim_none, Option.elim_none, ih fun c' hc' => h c' (List.mem_cons_of_mem _ hc'),
      Option.map_map]
    rfl

theorem marks?_plain (d : Dialect) {s : List Char} (h : ∀ c ∈ s, c ∉ quoteSigns) :
    marks? d .code s = some (s.map .code) := by
  simpa [marks?, Mode.isEnd] using marks?_plain_append d h []

/-- A text in parentheses, before another text. -/
theorem marks?_block {d : Dialect} {s : List Char} {ms : List Mark}
    (h : marks? d .code s = some ms) (rest : List Char) :
    marks? d .code ('(' :: (s ++ ')' :: rest)) =
      (marks? d .code rest).map fun rs => .code '(' :: (ms ++ .code ')' :: rs) := by
  have hopen := marks?_plain_append d (s := ['(']) (by decide) (s ++ ')' :: rest)
  have hclose := marks?_plain_append d (s := [')']) (by decide) rest
  rw [List.singleton_append] at hopen hclose
  rw [hopen, marks?_append h (unquoted_cons (by decide) rest), hclose, Option.map_map,
    Option.map_map]
  rfl

/-! ## Texts in quotes -/

/-- **A quoted text**: as a whole it stands in quotes that are closed at its end. -/
def IsQuoted (d : Dialect) (s : List Char) : Prop :=
  marks? d .code s = some (s.map .quoted)

/-- What stands in a quote and closes it. -/
def Closes (d : Dialect) (q : Quote) (s : List Char) : Prop :=
  marks? d (.quoted q) s = some (s.map .quoted)

@[simp] theorem closes_close (d : Dialect) (q : Quote) : Closes d q [q.close] := by
  simp [Closes, marks?, Mode.after, Mode.mark, Mode.isEnd]

/-- A character that neither closes the quote nor escapes may stand before. -/
theorem Closes.cons {d : Dialect} {q : Quote} {s : List Char} (hs : Closes d q s) {c : Char}
    (hclose : c ≠ q.close) (hescape : d.escapes q = true → c ≠ '\\') : Closes d q (c :: s) := by
  have hafter : Mode.after d (.quoted q) c = .quoted q := by
    have : ¬(d.escapes q = true ∧ c = '\\') := fun hq => hescape hq.1 hq.2
    simp only [Mode.after, hclose, this, if_false]
  rw [Closes, marks?, hafter, hs]
  rfl

/-- A backslash with the character that it escapes, or does not escape, may stand before. -/
theorem Closes.cons_backslash {d : Dialect} {q : Quote} {s : List Char} (hs : Closes d q s)
    {c : Char} (hq : '\\' ≠ q.close) (hclose : c ≠ q.close) (hescape : c ≠ '\\') :
    Closes d q ('\\' :: c :: s) := by
  by_cases he : d.escapes q = true
  · have hafter : Mode.after d (.quoted q) '\\' = .escaped q := by
      simp only [Mode.after, hq, if_false, he, and_self, if_true]
    rw [Closes, marks?, hafter, marks?, Mode.after, hs]
    rfl
  · -- here a backslash is a character like any other
    exact (hs.cons hclose fun _ => hescape).cons hq fun h => absurd h he

/-- A doubled closing quote may stand before. -/
theorem Closes.cons_doubled {d : Dialect} {q : Quote} {s : List Char} (hs : Closes d q s) :
    Closes d q (q.close :: q.close :: s) := by
  have hfirst : Mode.after d (.quoted q) q.close = .closing q := by simp [Mode.after]
  have hsecond : Mode.after d (.closing q) q.close = .quoted q := by simp [Mode.after]
  rw [Closes, marks?, hfirst, marks?, hsecond, hs]
  simp [Mode.mark]

/-- A text without that quote and without backslashes, and then the quote. -/
theorem closes_append_close (d : Dialect) (q : Quote) {s : List Char}
    (h : ∀ c ∈ s, c ≠ q.close ∧ c ≠ '\\') : Closes d q (s ++ [q.close]) := by
  induction s with
  | nil => exact closes_close d q
  | cons c s ih =>
    obtain ⟨⟨hclose, hescape⟩, hrest⟩ := List.forall_mem_cons.1 h
    exact (ih hrest).cons hclose fun _ => hescape

/-- A text that closes a quote makes a quoted text of the sign that opens it. -/
theorem isQuoted_cons {d : Dialect} {o : Char} {q : Quote} (ho : d.quote? o = some q)
    {s : List Char} (hs : Closes d q s) : IsQuoted d (o :: s) := by
  rw [IsQuoted, marks?, Mode.after, Mode.afterCode, Mode.mark, Mode.markCode, ho,
    Option.elim_some, Option.elim_some, hs]
  rfl

/-- **Quoted identifiers are quoted texts**, whatever the name. -/
@[simp] theorem isQuoted_quoteIdent (d : Dialect) (name : String) :
    IsQuoted d (d.quoteIdent name).toList := by
  obtain ⟨q, ho, hc, he⟩ : ∃ q, d.quote? d.identQuotes.1 = some q ∧ q.close = d.identQuotes.2 ∧
      d.escapes q = false := by
    cases d
    case mysql => exact ⟨.grave, by decide⟩
    case mssql => exact ⟨.bracket, by decide⟩
    all_goals exact ⟨.double, by decide⟩
  have hbody : ∀ s : List Char, Closes d q (Dialect.doubleQuotes q.close s ++ [q.close]) := by
    intro s
    induction s with
    | nil => exact closes_close d q
    | cons c s ih =>
      by_cases h : c = q.close
      · -- the name's own closing quote stands there twice, and so ends nothing
        rw [h]
        simpa [Dialect.doubleQuotes] using ih.cons_doubled
      · simpa [Dialect.doubleQuotes, h] using ih.cons h (by simp [he])
  rw [Dialect.quoteIdent, String.toList_ofList, ← hc]
  exact isQuoted_cons ho (hbody name.toList)

end Sql

end TableApi
