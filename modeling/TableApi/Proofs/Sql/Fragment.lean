import Mathlib.Data.List.Chain
import TableApi.Proofs.Sql.Pieces

/-!
# Texts that end no statement

* `OneStatement` — what is promised of a whole statement: every quote is closed, and outside quotes
  there is no semicolon and no opener of a comment.
* `Harmless` — the same with the slash left out too, so that the only thing to look at where two
  texts meet is a hyphen on either side. A text whose first character is neither a hyphen nor a
  quote is a `Led` one; it can follow any harmless text. Statements are put together from these two.
* `Fragment` — the grammar of the conditions that filters are compiled to: words, quoted texts,
  texts with a separator between them, and texts in parentheses with something or nothing before
  them. Every fragment is harmless, and its parentheses are balanced.
-/

namespace TableApi.Sql

/-- **One statement, lexically**: every string literal and quoted identifier is closed, and outside
them there is no semicolon, no `--` and no slash with a star. -/
def OneStatement (d : Dialect) (s : List Char) : Prop :=
  ∃ ms, marks? d .code s = some ms ∧ .code ';' ∉ ms ∧ ¬[.code '-', .code '-'] <:+: ms ∧
    ¬[.code '/', .code '*'] <:+: ms

/-! ## Harmless texts -/

/-- Characters that must not stand outside quotes, or that open or close them. -/
def harmfulSigns : List Char := ';' :: '/' :: quoteSigns

/-- Two characters that do not open a comment together. -/
def Apart (a b : Mark) : Prop :=
  ¬(a = .code '-' ∧ b = .code '-')

/-- **A harmless text**: its quotes are closed, and outside them there is no semicolon, no slash
and no two hyphens in a row. -/
def Harmless (d : Dialect) (s : List Char) : Prop :=
  ∃ ms, marks? d .code s = some ms ∧ .code ';' ∉ ms ∧ .code '/' ∉ ms ∧ ms.IsChain Apart

theorem Harmless.oneStatement {d : Dialect} {s : List Char} (h : Harmless d s) :
    OneStatement d s := by
  obtain ⟨ms, hms, hsemicolon, hslash, hchain⟩ := h
  refine ⟨ms, hms, hsemicolon, fun hin => ?_, fun hin => ?_⟩
  · have hpair := List.IsChain.infix hchain hin
    exact List.isChain_pair.1 hpair ⟨rfl, rfl⟩
  · exact hslash (hin.subset (List.mem_cons_self ..))

/-- A text of harmless signs without two hyphens in a row, such as a sanitized one. -/
theorem harmless_of_signs (d : Dialect) {s : List Char} (hs : ∀ c ∈ s, c ∉ harmfulSigns)
    (hh : ¬['-', '-'] <:+: s) : Harmless d s := by
  have hcode : ∀ x ∈ harmfulSigns, .code x ∉ s.map Mark.code := by
    rintro x hx hmem
    obtain ⟨c, hc, heq⟩ := List.mem_map.1 hmem
    obtain rfl := Mark.code.inj heq
    exact hs c hc hx
  refine ⟨s.map .code, marks?_plain d fun c hc hq => hs c hc ?_, hcode _ (by decide),
    hcode _ (by decide), ?_⟩
  · exact List.mem_cons_of_mem _ (List.mem_cons_of_mem _ hq)
  · rw [List.isChain_map, List.isChain_iff_forall_rel_of_append_cons_cons]
    rintro a b l₁ l₂ rfl ⟨ha, hb⟩
    obtain rfl := Mark.code.inj ha
    obtain rfl := Mark.code.inj hb
    exact hh ⟨l₁, l₂, by simp⟩

@[simp] theorem harmless_nil (d : Dialect) : Harmless d [] :=
  harmless_of_signs d (by simp) (by simp)

theorem IsQuoted.harmless {d : Dialect} {s : List Char} (h : IsQuoted d s) : Harmless d s := by
  refine ⟨s.map .quoted, h, by simp, by simp, ?_⟩
  rw [List.isChain_map, List.isChain_iff_forall_rel_of_append_cons_cons]
  rintro a b l₁ l₂ - ⟨ha, -⟩
  exact absurd ha (by simp)

/-! ## Where two texts meet -/

/-- **A text that can follow another**: it starts with no hyphen and no quote, or it is empty. -/
structure Led (d : Dialect) (s : List Char) : Prop where
  harmless : Harmless d s
  head : ∀ c ∈ s.head?, c ∉ '-' :: quoteSigns

@[simp] theorem led_nil (d : Dialect) : Led d [] := ⟨harmless_nil d, by simp⟩

theorem Harmless.append {d : Dialect} {a b : List Char} (ha : Harmless d a) (hb : Led d b) :
    Harmless d (a ++ b) := by
  obtain ⟨as, has, ha₁, ha₂, ha₃⟩ := ha
  obtain ⟨⟨bs, hbs, hb₁, hb₂, hb₃⟩, hhead⟩ := hb
  have hunquoted : Unquoted b := fun c hc hq => hhead c hc (List.mem_cons_of_mem _ hq)
  refine ⟨as ++ bs, ?_, ?_, ?_, ha₃.append hb₃ ?_⟩
  · rw [marks?_append has hunquoted, hbs]
    rfl
  · simp [ha₁, hb₁]
  · simp [ha₂, hb₂]
  · -- the second text starts with the character of its first mark, which is no hyphen
    rintro x - y hy ⟨-, rfl⟩
    refine hhead '-' ?_ (List.mem_cons_self ..)
    rw [← map_char_marks hbs, List.head?_map, hy]
    rfl

theorem Led.append {d : Dialect} {a b : List Char} (ha : Led d a) (hb : Led d b) :
    Led d (a ++ b) := by
  refine ⟨ha.harmless.append hb, ?_⟩
  cases a with
  | nil => exact hb.head
  | cons c a => exact ha.head

/-- **A firm text**: it is not empty, and has no sign that could open or close anything. -/
def Firm (s : List Char) : Prop :=
  s ≠ [] ∧ ∀ c ∈ s, c ∉ '-' :: harmfulSigns

instance (s : List Char) : Decidable (Firm s) :=
  inferInstanceAs (Decidable (_ ∧ _))

/-- A firm text separates whatever follows it from whatever stands before it. -/
theorem Firm.append {d : Dialect} {t b : List Char} (ht : Firm t) (hb : Harmless d b) :
    Led d (t ++ b) := by
  obtain ⟨hne, hsigns⟩ := ht
  obtain ⟨bs, hbs, hb₁, hb₂, hb₃⟩ := hb
  have hcode : ∀ x ∈ '-' :: harmfulSigns, .code x ∉ t.map Mark.code := by
    rintro x hx hmem
    obtain ⟨c, hc, heq⟩ := List.mem_map.1 hmem
    obtain rfl := Mark.code.inj heq
    exact hsigns c hc hx
  have hquote : ∀ c ∈ t, c ∉ quoteSigns := fun c hc hq =>
    hsigns c hc (by simp only [harmfulSigns, List.mem_cons, hq, or_true])
  have hhyphen : .code '-' ∉ t.map Mark.code := hcode _ (by decide)
  refine ⟨⟨t.map .code ++ bs, ?_, ?_, ?_, List.IsChain.append ?_ hb₃ ?_⟩, ?_⟩
  · rw [marks?_plain_append d hquote, hbs]
    rfl
  · simpa [hb₁] using hcode ';' (by decide)
  · simpa [hb₂] using hcode '/' (by decide)
  · rw [List.isChain_iff_forall_rel_of_append_cons_cons]
    rintro a b l₁ l₂ hl ⟨rfl, -⟩
    exact hhyphen (by simp [hl])
  · rintro x hx y - ⟨rfl, -⟩
    exact hhyphen (List.mem_of_getLast? hx)
  · cases t with
    | nil => exact absurd rfl hne
    | cons c t =>
      rintro x hx hmem
      obtain rfl : c = x := by simpa using hx
      refine hsigns c (List.mem_cons_self ..) ?_
      rcases List.mem_cons.1 hmem with rfl | hq
      · exact List.mem_cons_self ..
      · exact absurd hq (hquote c (List.mem_cons_self ..))

theorem Firm.led {t : List Char} (ht : Firm t) (d : Dialect) : Led d t := by
  simpa using ht.append (harmless_nil d)

/-- What holds of texts, and is kept when two are put together with a separator between them, holds
of all of them put together. -/
theorem intercalate_keeps {P : List Char → Prop} {sep : String} (hnil : P [])
    (hjoin : ∀ {a b}, P a → P b → P (a ++ (sep.toList ++ b))) {parts : List String}
    (h : ∀ p ∈ parts, P p.toList) : P (sep.intercalate parts).toList := by
  induction parts with
  | nil => exact hnil
  | cons p parts ih =>
    obtain ⟨hp, hparts⟩ := List.forall_mem_cons.1 h
    cases parts with
    | nil => simpa using hp
    | cons q parts =>
      rw [String.intercalate_cons_cons, String.toList_append, String.toList_append,
        List.append_assoc]
      exact hjoin hp (ih hparts)

/-- Texts with a firm one between each two of them. -/
theorem harmless_intercalate {d : Dialect} {sep : String} (hsep : Firm sep.toList)
    {parts : List String} (h : ∀ p ∈ parts, Harmless d p.toList) :
    Harmless d (sep.intercalate parts).toList :=
  intercalate_keeps (harmless_nil d) (fun ha hb => ha.append (hsep.append hb)) h

/-! ## Fragments -/

/-- **The grammar of compiled conditions.** -/
inductive Fragment (d : Dialect) : List Char → Prop
  /-- A word, a number, a keyword, or nothing. -/
  | word {s : List Char} (signs : ∀ c ∈ s, c ∉ '(' :: ')' :: harmfulSigns)
      (hyphens : ¬['-', '-'] <:+: s) : Fragment d s
  /-- A string literal or a quoted identifier. -/
  | quoted {s : List Char} (h : IsQuoted d s) : Fragment d s
  /-- Two fragments with a separator between them. -/
  | join {a sep b : List Char} (left : Fragment d a) (firm : Firm sep)
      (parens : '(' ∉ sep ∧ ')' ∉ sep) (right : Fragment d b) : Fragment d (a ++ (sep ++ b))
  /-- A fragment in parentheses, and one before them. -/
  | call {name args : List Char} (before : Fragment d name) (inner : Fragment d args) :
      Fragment d (name ++ '(' :: (args ++ [')']))

namespace Fragment

variable {d : Dialect}

@[simp] theorem nil : Fragment d [] := .word (by simp) (by simp)

theorem firm {s : List Char} (h : Firm s) (parens : '(' ∉ s ∧ ')' ∉ s) : Fragment d s := by
  refine .word (fun c hc hmem => ?_) fun hin => ?_
  · rcases List.mem_cons.1 hmem with rfl | hmem
    · exact parens.1 hc
    rcases List.mem_cons.1 hmem with rfl | hmem
    · exact parens.2 hc
    · exact h.2 c hc (List.mem_cons_of_mem _ hmem)
  · exact h.2 '-' (hin.subset (List.mem_cons_self ..)) (List.mem_cons_self ..)

theorem group {s : List Char} (h : Fragment d s) : Fragment d ('(' :: (s ++ [')'])) :=
  call nil h

/-- Fragments with a separator between each two of them. -/
theorem intercalate {sep : String} (firm : Firm sep.toList)
    (parens : '(' ∉ sep.toList ∧ ')' ∉ sep.toList) {parts : List String}
    (h : ∀ p ∈ parts, Fragment d p.toList) : Fragment d (sep.intercalate parts).toList :=
  intercalate_keeps nil (fun ha hb => ha.join firm parens hb) h

/-- **Fragments are harmless.** -/
theorem harmless {s : List Char} (h : Fragment d s) : Harmless d s := by
  induction h with
  | word signs hyphens =>
    refine harmless_of_signs d (fun c hc hmem => signs c hc ?_) hyphens
    exact List.mem_cons_of_mem _ (List.mem_cons_of_mem _ hmem)
  | quoted h => exact h.harmless
  | join _ firm _ _ left right => exact left.append (firm.append right)
  | call _ _ before inner =>
    have hclose : Led d [')'] := Firm.led (by decide) d
    have hopen : Firm ['('] := by decide
    exact before.append (hopen.append (inner.append hclose))

/-- **The parentheses of a fragment are balanced.** -/
theorem balanced {s : List Char} (h : Fragment d s) :
    ∃ ms, marks? d .code s = some ms ∧ Balanced ms := by
  have hcode : ∀ {s : List Char}, (∀ c ∈ s, c ≠ '(' ∧ c ≠ ')') →
      Balanced (s.map Mark.code) := by
    intro s hs
    refine balanced_of_no_parens fun m hm => ?_
    obtain ⟨c, hc, rfl⟩ := List.mem_map.1 hm
    simpa using hs c hc
  have hquote : ∀ {c : Char} {l : List Char}, c ∈ quoteSigns → c ∈ l ++ harmfulSigns := by
    intro c l hc
    simp [harmfulSigns, hc]
  induction h with
  | @word s signs _ =>
    refine ⟨s.map .code, marks?_plain d fun c hc hq => ?_, hcode fun c hc => ⟨?_, ?_⟩⟩
    · exact signs c hc (hquote (l := ['(', ')']) hq)
    · rintro rfl
      exact signs _ hc (by decide)
    · rintro rfl
      exact signs _ hc (by decide)
  | @quoted s h =>
    refine ⟨s.map .quoted, h, balanced_of_no_parens fun m hm => ?_⟩
    obtain ⟨c, -, rfl⟩ := List.mem_map.1 hm
    exact ⟨by simp, by simp⟩
  | @join a sep b _ firm parens hright left right =>
    obtain ⟨as, has, hbal⟩ := left
    obtain ⟨bs, hbs, hbal'⟩ := right
    have hsep : Unquoted (sep ++ b) := fun c hc hq =>
      (firm.append hright.harmless).head c hc (List.mem_cons_of_mem _ hq)
    have hplain : ∀ c ∈ sep, c ∉ quoteSigns := fun c hc hq =>
      firm.2 c hc (hquote (l := ['-']) hq)
    refine ⟨as ++ (sep.map .code ++ bs), ?_, hbal.append (.append (hcode ?_) hbal')⟩
    · rw [marks?_append has hsep, marks?_plain_append d hplain, hbs]
      rfl
    · intro c hc
      exact ⟨fun h => parens.1 (h ▸ hc), fun h => parens.2 (h ▸ hc)⟩
  | @call name args _ _ before inner =>
    obtain ⟨ns, hns, hbal⟩ := before
    obtain ⟨as, has, hbal'⟩ := inner
    refine ⟨ns ++ .code '(' :: (as ++ [.code ')']), ?_, hbal.append hbal'.parenthesized⟩
    rw [marks?_append hns (unquoted_cons (by decide) _), marks?_block has]
    rfl

end Fragment

end TableApi.Sql
