import TableApi.Proofs.Filter.Written

/-!
# Reading what was written

The machine of the grammar over the text of a well-formed filter. It alternates between two states
at each level of parentheses: it waits for the next clause, with what joins it to the ones before
(`waiting`), or it has read a clause to its last token, which the next token will close (`HasRead`).

* `Expr.IsRead` — the expression takes the machine from the one to the other.
* `Comparison.WellFormed.isRead` — a comparison does, by its tokens.
* `isRead_group` — so does a group whose members do: they are read on a level of their own.
* `WellFormed.parse_writes` — a whole text, by induction over the tree.
-/

namespace TableApi.Filter

/-! ## The tokens of a comparison -/

/-- A value as an item of a clause. -/
def Atom.item : Atom → Item
  | .bare w => .word w
  | .quoted s => .quoted s

/-- The value is no joiner. -/
def Atom.Plain (a : Atom) : Prop :=
  (Token.atom a).joiner? = none

/-- A word that is neither *and* nor *or*. -/
theorem plain_bare {w : String} (hand : Text.sameLetters w "and" = false)
    (hor : Text.sameLetters w "or" = false) : (Atom.bare w).Plain := by
  simp [Atom.Plain, Token.joiner?, hand, hor]

theorem Opcode.plain_word {op : Opcode} {word : String}
    (h : Text.sameLetters op.mnemonic word = true) : (Atom.bare word).Plain := by
  refine plain_bare ?_ ?_
  · rw [Text.sameLetters_left h]
    cases op <;> decide
  · rw [Text.sameLetters_left h]
    cases op <;> decide

theorem Operand.WellFormed.plain {o : Operand} (h : o.WellFormed) : o.atom.Plain := by
  cases o with
  | text s => rfl
  | number s => exact plain_bare h.1.not_and h.1.not_or
  | column s => exact plain_bare h.1.not_and h.1.not_or
  | word s => exact plain_bare h.1.not_and h.1.not_or

theorem Operand.WellFormed.operands_item {o : Operand} (h : o.WellFormed) :
    o.atom.item.operands = [o] := by
  cases o with
  | text s => rfl
  | number s => exact congrArg (fun x => [x]) h.2
  | column s => exact congrArg (fun x => [x]) h.2
  | word s => exact congrArg (fun x => [x]) h.2

/-- The word of an opcode is read as the opcode, in any case. -/
theorem Opcode.ofWord?_eq_some {op : Opcode} {word : String}
    (h : Text.sameLetters op.mnemonic word = true) : Opcode.ofWord? word = some op := by
  have hall : Opcode.ofWord? word = Opcode.ofWord? op.mnemonic :=
    congrArg (fun p => Opcode.all.find? p)
      (funext fun other => Text.sameLetters_right h other.mnemonic)
  rw [hall]
  cases op <;> decide

/-- The right number of operands passes the check. -/
theorem checkedOperands_of_takes {op : Opcode} {operands : List Operand}
    (h : op.Takes operands.length) : checkedOperands op operands = .ok operands := by
  cases op with
  | is_ | nis =>
    obtain rfl : operands = [] := List.length_eq_zero_iff.1 h
    rfl
  | bt | nbt => exact if_pos h
  | in_ | nin => exact if_neg (Nat.ne_of_gt h)
  | _ => exact if_pos h

/-- **The items of a comparison are read as the comparison.** -/
theorem Comparison.WellFormed.interpret_items {c : Comparison} (h : c.WellFormed) {word : String}
    (hword : Text.sameLetters c.op.mnemonic word = true) :
    interpret ((.bare c.field :: .bare word :: c.operands.map Operand.atom).map Atom.item) =
      .ok (.compare c) := by
  have hoperands : (c.operands.map fun o => o.atom.item).flatMap Item.operands = c.operands := by
    rw [List.flatMap_map, List.flatMap_congr fun o ho => (h.operands o ho).operands_item]
    simp
  simp only [List.map_cons, List.map_map, Atom.item, interpret, Item.field?, Item.opcode?,
    Opcode.ofWord?_eq_some hword]
  simp only [Function.comp_def, hoperands, checkedOperands_of_takes h.count]
  rfl

/-! ## The machine -/

/-- In the middle of a clause of the innermost list: the clauses before it, what joins it to them,
and its items so far. -/
def gathering (outer : List Level) (done : List Clause) (joiner : Option Joiner)
    (items : List Item) : ParseState :=
  ⟨⟨done.reverse, joiner, items.reverse⟩, outer, none⟩

/-- At the beginning of a clause. -/
def waiting (outer : List Level) (done : List Clause) (joiner : Option Joiner) : ParseState :=
  gathering outer done joiner []

/-- **The innermost list has been read so far**: these are its clauses once the last one closes. -/
structure HasRead (s : ParseState) (outer : List Level) (done : List Clause) : Prop where
  call : s.call = none
  outer : s.outer = outer
  close : s.level.close = .ok ⟨done.reverse, none, []⟩

/-- Nothing of a list has been read at its beginning. -/
theorem hasRead_waiting (outer : List Level) (done : List Clause) :
    HasRead (waiting outer done none) outer done :=
  ⟨rfl, rfl, rfl⟩

/-- A clause has been read once its items mean something. -/
theorem hasRead_gathering (outer : List Level) (done : List Clause) (joiner : Option Joiner)
    {items : List Item} (hne : items ≠ []) {e : Expr} (h : interpret items = .ok e) :
    HasRead (gathering outer done joiner items) outer (done ++ [(joiner, e)]) := by
  refine ⟨rfl, rfl, ?_⟩
  have hempty : items.reverse.isEmpty = false := by simpa using hne
  rw [gathering, Level.close, hempty, List.reverse_reverse, h]
  simp [Level.push, Functor.map, Except.map]

/-- The values of a clause are gathered in turn. -/
theorem foldlM_atoms (outer : List Level) (done : List Clause) (joiner : Option Joiner)
    {atoms : List Atom} (h : ∀ a ∈ atoms, a.Plain) (items : List Item) :
    (atoms.map Token.atom).foldlM ParseState.step (gathering outer done joiner items) =
      .ok (gathering outer done joiner (items ++ atoms.map Atom.item)) := by
  induction atoms generalizing items with
  | nil => simp [pure, Except.pure]
  | cons a atoms ih =>
    obtain ⟨ha, hatoms⟩ := List.forall_mem_cons.1 h
    have hitem : (Token.atom a).item? = some a.item := by cases a <;> rfl
    have hstep : (gathering outer done joiner items).step (.atom a) =
        .ok (gathering outer done joiner (items ++ [a.item])) := by
      rw [Atom.Plain] at ha
      simp [ParseState.step, gathering, ParseState.clause, ha, hitem, Level.addItem, pure,
        Except.pure]
    rw [List.map_cons, List.foldlM_cons, hstep]
    simpa [bind, Except.bind] using ih hatoms (items ++ [a.item])

/-! ## Texts -/

/-- The machine over a text. -/
def reading (s : ParseState) (text : List Char) : Except FilterError ParseState :=
  (scan [] text).foldlM ParseState.step s

/-- The machine over a text whose first tokens are known. -/
theorem reading_of_scan {tokens : List Token} {text rest : List Char} {s s' : ParseState}
    (hscan : scan [] text = tokens ++ scan [] rest)
    (hread : tokens.foldlM ParseState.step s = .ok s') : reading s text = reading s' rest := by
  rw [reading, hscan, List.foldlM_append, hread]
  rfl

/-- The machine over a text whose first token is known. -/
theorem reading_of_step {t : Token} {text rest : List Char} {s s' : ParseState}
    (hscan : scan [] text = t :: scan [] rest) (hstep : s.step t = .ok s') :
    reading s text = reading s' rest := by
  rw [reading, hscan, List.foldlM_cons, hstep]
  rfl

/-- **What reading an expression does**, whatever ends it: it becomes the next clause. -/
def Expr.IsRead (e : Expr) : Prop :=
  ∀ text, e.Writes text → ∀ rest, Ends rest → ∀ outer done joiner,
    ∃ s, HasRead s outer (done ++ [(joiner, e)]) ∧
      reading (waiting outer done joiner) (text ++ rest) = reading s rest

/-- **A comparison is read.** -/
theorem Comparison.WellFormed.isRead {c : Comparison} (h : c.WellFormed) :
    (Expr.compare c).IsRead := by
  intro text htext rest hrest outer done joiner
  rw [Expr.Writes] at htext
  obtain ⟨word, hword, hscan⟩ := h.scan_writes htext hrest
  have hplain : ∀ a ∈ Atom.bare c.field :: .bare word :: c.operands.map Operand.atom, a.Plain := by
    refine List.forall_mem_cons.2 ⟨plain_bare h.field.not_and h.field.not_or, ?_⟩
    refine List.forall_mem_cons.2 ⟨Opcode.plain_word hword, List.forall_mem_map.2 fun o ho => ?_⟩
    exact (h.operands o ho).plain
  have hread := reading_of_scan hscan (foldlM_atoms outer done joiner hplain [])
  exact ⟨_, hasRead_gathering outer done joiner (by simp) (h.interpret_items hword), hread⟩

/-- A joiner closes the clause before it, and the next clause waits. -/
theorem reading_joiner {j : Joiner} {word : String}
    (hword : Text.sameLetters j.keyword word = true) {s : ParseState} {outer : List Level}
    {done : List Clause} (h : HasRead s outer done) (rest : List Char) :
    reading s (',' :: (word.toList ++ ',' :: rest)) =
      reading (waiting outer done (some j)) rest := by
  have hjoiner : (Token.atom (.bare word)).joiner? = some j := by
    rw [Token.joiner?, Text.sameLetters_left hword, Text.sameLetters_left hword]
    cases j <;> decide
  have hscan : scan [] (',' :: (word.toList ++ ',' :: rest)) =
      .atom (.bare word) :: scan [] rest := by
    rw [scan_comma, scan_bare (Joiner.valid_word hword) (ends_comma _), scan_comma]
  refine reading_of_step hscan ?_
  simp [ParseState.step, ParseState.clause, h.call, hjoiner, h.close, h.outer, Level.settle,
    waiting, gathering, bind, Except.bind, pure, Except.pure]

/-- Clauses that are joined to the ones before them end those. -/
theorem ends_writes {clauses : List Clause} (hjoined : ∀ c ∈ clauses, c.1 ≠ none)
    {text : List Char} (htext : Writes clauses text) {rest : List Char} (hrest : Ends rest) :
    Ends (text ++ rest) := by
  cases clauses with
  | nil =>
    rw [Writes] at htext
    subst htext
    exact hrest
  | cons c later =>
    obtain ⟨joiner, e⟩ := c
    rw [Writes] at htext
    obtain ⟨lead, first, more, hlead, -, -, rfl⟩ := htext
    cases joiner with
    | none => exact absurd rfl (hjoined _ (List.mem_cons_self ..))
    | some j =>
      obtain ⟨word, -, rfl⟩ := hlead
      exact ends_comma _

/-- **Later clauses are read**, each after the ones before it have been read. -/
theorem reads_later {clauses : List Clause} (hread : ∀ c ∈ clauses, c.2.IsRead)
    (hjoined : ∀ c ∈ clauses, c.1 ≠ none) {text : List Char} (htext : Writes clauses text)
    {rest : List Char} (hrest : Ends rest) {s : ParseState} {outer : List Level}
    {done : List Clause} (hs : HasRead s outer done) :
    ∃ s', HasRead s' outer (done ++ clauses) ∧ reading s (text ++ rest) = reading s' rest := by
  induction clauses generalizing text s done with
  | nil =>
    rw [Writes] at htext
    subst htext
    exact ⟨s, by simpa using hs, rfl⟩
  | cons c later ih =>
    obtain ⟨joiner, e⟩ := c
    obtain ⟨hread_e, hread_later⟩ := List.forall_mem_cons.1 hread
    obtain ⟨hjoined_e, hjoined_later⟩ := List.forall_mem_cons.1 hjoined
    rw [Writes] at htext
    obtain ⟨lead, first, more, hlead, hfirst, hmore, rfl⟩ := htext
    cases joiner with
    | none => exact absurd rfl hjoined_e
    | some j =>
      obtain ⟨word, hword, rfl⟩ := hlead
      -- the joiner closes what was read before; the rest of the list ends this expression
      have hends := ends_writes hjoined_later hmore hrest
      obtain ⟨t, ht, hfirst_read⟩ := hread_e first hfirst _ hends outer done (some j)
      obtain ⟨s', hs', hmore_read⟩ := ih hread_later hjoined_later hmore ht
      refine ⟨s', by simpa using hs', ?_⟩
      calc reading s (',' :: (word.toList ++ [',']) ++ (first ++ more) ++ rest)
          = reading s (',' :: (word.toList ++ ',' :: (first ++ (more ++ rest)))) := by simp
        _ = reading (waiting outer done (some j)) (first ++ (more ++ rest)) :=
            reading_joiner hword hs _
        _ = reading t (more ++ rest) := hfirst_read
        _ = reading s' rest := hmore_read

/-- **A clause list is read** from its beginning. -/
theorem reads_joined {clauses : List Clause} (hread : ∀ c ∈ clauses, c.2.IsRead)
    (hjoined : Joined clauses) {text : List Char} (htext : Writes clauses text)
    {rest : List Char} (hrest : Ends rest) (outer : List Level) :
    ∃ s, HasRead s outer clauses ∧
      reading (waiting outer [] none) (text ++ rest) = reading s rest := by
  cases clauses with
  | nil => exact reads_later hread (by simp) htext hrest (hasRead_waiting outer [])
  | cons c later =>
    obtain ⟨joiner, e⟩ := c
    obtain ⟨rfl, hjoined_later⟩ := hjoined
    obtain ⟨hread_e, hread_later⟩ := List.forall_mem_cons.1 hread
    rw [Writes] at htext
    obtain ⟨lead, first, more, rfl, hfirst, hmore, rfl⟩ := htext
    have hends := ends_writes hjoined_later hmore hrest
    obtain ⟨t, ht, hfirst_read⟩ := hread_e first hfirst _ hends outer [] none
    obtain ⟨s, hs, hmore_read⟩ := reads_later hread_later hjoined_later hmore hrest ht
    refine ⟨s, hs, ?_⟩
    rw [List.nil_append, List.append_assoc, hfirst_read, hmore_read]

/-- **A group is read** if its clauses are: they are read on a level of their own. -/
theorem isRead_group {clauses : List Clause} (hread : ∀ c ∈ clauses, c.2.IsRead)
    (hjoined : Joined clauses) : (Expr.group clauses).IsRead := by
  intro text htext rest hrest outer done joiner
  rw [Expr.Writes] at htext
  obtain ⟨inner, hinner, rfl⟩ := htext
  -- no item was begun, so the parenthesis opens a group and not a call
  have hopen : (waiting outer done joiner).step .openParen =
      .ok (waiting (⟨done.reverse, joiner, []⟩ :: outer) [] none) := rfl
  obtain ⟨s, hs, hinner_read⟩ := reads_joined hread hjoined hinner (ends_closeParen rest)
    (⟨done.reverse, joiner, []⟩ :: outer)
  have hclose : s.step .closeParen =
      .ok (waiting outer (done ++ [(joiner, .group clauses)]) none) := by
    simp [ParseState.step, ParseState.clause, hs.call, Token.joiner?, Token.item?,
      ParseState.closeParen, hs.close, hs.outer, Level.result, Level.settle, Level.push, waiting,
      gathering, bind, Except.bind, pure, Except.pure]
  refine ⟨_, hasRead_waiting outer _, ?_⟩
  calc reading (waiting outer done joiner) ('(' :: (inner ++ [')']) ++ rest)
      = reading (waiting outer done joiner) ('(' :: (inner ++ ')' :: rest)) := by simp
    _ = reading (waiting (⟨done.reverse, joiner, []⟩ :: outer) [] none) (inner ++ ')' :: rest) :=
        reading_of_step (scan_openParen _) hopen
    _ = reading s (')' :: rest) := hinner_read
    _ = reading (waiting outer (done ++ [(joiner, .group clauses)]) none) rest :=
        reading_of_step (scan_closeParen _) hclose

/-- **Every well-formed expression is read.** -/
theorem Expr.WellFormed.isRead {e : Expr} (h : e.WellFormed) : e.IsRead := by
  induction h with
  | compare h => exact h.isRead
  | group joined _ ih => exact isRead_group ih joined

/-- **A written filter is read back.** -/
theorem WellFormed.parse_writes {clauses : List Clause} (h : WellFormed clauses) {text : String}
    (htext : Writes clauses text.toList) : parse (tokenize text) = .ok clauses := by
  have hread : ∀ c ∈ clauses, c.2.IsRead := fun c hc => (h.each c hc).isRead
  obtain ⟨s, hs, hrun⟩ := reads_joined hread h.joined htext ends_nil []
  rw [List.append_nil] at hrun
  have htokens : (tokenize text).foldlM ParseState.step .start = .ok s := by
    refine hrun.trans ?_
    simp [reading, scan, wordToken, pure, Except.pure]
  rw [parse, htokens]
  simp [bind, Except.bind, ParseState.finish, hs.call, hs.close, hs.outer, Level.result,
    Level.settle, pure, Except.pure]

end TableApi.Filter
