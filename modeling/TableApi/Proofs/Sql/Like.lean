import Mathlib.Data.List.Infix

/-!
# How a database reads patterns

A pattern of `LIKE` is read as a list of signs (`signs?`): `%` stands for any number of characters,
`_` for any one of them, and every other character for itself. An escape character takes the next
character as itself too (`marked?`).

Which texts a list of signs matches is a relation (`Matches`). Signs that stand for one character
each, with `%` before or after them or on both sides, match the texts in which those characters
stand in a row (`matches_around`).
-/

namespace TableApi.Sql

/-- **A sign of a pattern.** -/
inductive Sign
  /-- Any number of characters. -/
  | many
  /-- One of some characters. -/
  | one (allowed : Char → Bool)

/-- A character that stands for itself. -/
def Sign.exactly (c : Char) : Sign :=
  .one (· == c)

/-! ## Matching -/

/-- **The signs match the text**, from its beginning to its end. -/
inductive Matches : List Sign → List Char → Prop
  | nil : Matches [] []
  | one {allowed : Char → Bool} {c : Char} {p : List Sign} {s : List Char}
      (here : allowed c = true) (rest : Matches p s) : Matches (.one allowed :: p) (c :: s)
  /-- No more characters are passed over. -/
  | stop {p : List Sign} {s : List Char} (rest : Matches p s) : Matches (.many :: p) s
  /-- One more character is passed over. -/
  | pass {c : Char} {p : List Sign} {s : List Char} (rest : Matches (.many :: p) s) :
      Matches (.many :: p) (c :: s)

variable {p : List Sign} {s v : List Char}

@[simp] theorem matches_nil : Matches [] s ↔ s = [] := by
  constructor
  · rintro ⟨⟩
    rfl
  · rintro rfl
    exact .nil

/-- Any number of characters may stand before what matches the other signs. -/
@[simp] theorem matches_many : Matches (.many :: p) s ↔ ∃ before after, s = before ++ after ∧
    Matches p after := by
  constructor
  · intro h
    induction s with
    | nil =>
      cases h with
      | stop rest => exact ⟨[], [], rfl, rest⟩
    | cons c s ih =>
      cases h with
      | stop rest => exact ⟨[], c :: s, rfl, rest⟩
      | pass rest =>
        obtain ⟨before, after, rfl, hafter⟩ := ih rest
        exact ⟨c :: before, after, rfl, hafter⟩
  · rintro ⟨before, after, rfl, hafter⟩
    induction before with
    | nil => exact .stop hafter
    | cons c before ih => exact .pass ih

/-- Characters that stand for themselves match themselves, and what follows is left to the other
signs. -/
@[simp] theorem matches_exactly_append :
    Matches (v.map .exactly ++ p) s ↔ ∃ after, s = v ++ after ∧ Matches p after := by
  induction v generalizing s with
  | nil => simp
  | cons c v ih =>
    constructor
    · intro h
      cases h with
      | one here rest =>
        obtain ⟨after, rfl, hafter⟩ := ih.1 rest
        obtain rfl := beq_iff_eq.1 here
        exact ⟨after, rfl, hafter⟩
    · rintro ⟨after, rfl, hafter⟩
      exact .one (beq_self_eq_true c) (ih.2 ⟨after, rfl, hafter⟩)

/-- The sign for any number of characters, where it is asked for. -/
def manyIf (on : Bool) : List Sign :=
  if on then [.many] else []

@[simp] theorem matches_manyIf (on : Bool) : Matches (manyIf on) s ↔ on = true ∨ s = [] := by
  cases on with
  | false => simp [manyIf]
  | true => exact iff_of_true (matches_many.2 ⟨s, [], by simp, .nil⟩) (.inl rfl)

/-- **Characters that stand for themselves, with or without more on either side.** -/
theorem matches_around (before after : Bool) :
    Matches (manyIf before ++ (v.map .exactly ++ manyIf after)) s ↔
      ∃ a b, s = a ++ (v ++ b) ∧ (before = true ∨ a = []) ∧ (after = true ∨ b = []) := by
  have hrest : ∀ {t}, Matches (v.map .exactly ++ manyIf after) t ↔
      ∃ b, t = v ++ b ∧ (after = true ∨ b = []) := by
    intro t
    simp only [matches_exactly_append, matches_manyIf]
  cases before with
  | false =>
    have hnone : manyIf false = [] := rfl
    rw [hnone, List.nil_append, hrest]
    simp
  | true =>
    have hmany : manyIf true = [.many] := rfl
    rw [hmany, List.singleton_append, matches_many]
    constructor
    · rintro ⟨a, t, rfl, ht⟩
      obtain ⟨b, rfl, hb⟩ := hrest.1 ht
      exact ⟨a, b, rfl, .inl rfl, hb⟩
    · rintro ⟨a, b, rfl, -, hb⟩
      exact ⟨a, v ++ b, rfl, hrest.2 ⟨b, rfl, hb⟩⟩

/-! ## Reading -/

/-- **A character of a pattern**, and whether an escape character stood before it. -/
structure Marked where
  char : Char
  escaped : Bool
deriving DecidableEq, Repr

/-- A character that is not escaped. -/
def Marked.plain (c : Char) : Marked :=
  ⟨c, false⟩

/-- **The characters of a pattern** once the escape character is taken out. A pattern that ends with
it has none. -/
def marked? (escape : Option Char) : List Char → Option (List Marked)
  | [] => some []
  | [c] => if escape = some c then none else some [.plain c]
  | c :: next :: rest =>
    if escape = some c then (marked? escape rest).map (⟨next, true⟩ :: ·)
    else (marked? escape (next :: rest)).map (.plain c :: ·)

/-- A character that does not escape is read on its own. -/
theorem marked?_cons {escape : Option Char} {c : Char} (h : escape ≠ some c) (s : List Char) :
    marked? escape (c :: s) = (marked? escape s).map (.plain c :: ·) := by
  cases s with
  | nil => simp [marked?, h]
  | cons next rest => rw [marked?, if_neg h]

/-- A character after the escape character is escaped. -/
@[simp] theorem marked?_escaped (e c : Char) (s : List Char) :
    marked? (some e) (e :: c :: s) = (marked? (some e) s).map (⟨c, true⟩ :: ·) := by
  rw [marked?, if_pos rfl]

/-- What a character stands for that is not escaped. -/
def Sign.ofChar (c : Char) : Sign :=
  if c = '%' then .many else if c = '_' then .one fun _ => true else .exactly c

/-- What a character stands for. -/
def Marked.sign (m : Marked) : Sign :=
  if m.escaped then .exactly m.char else .ofChar m.char

/-- **The signs of a pattern** where `%` and `_` are the only wildcards. A pattern that ends with
the escape character has none. -/
def signs? (escape : Option Char) : List Char → Option (List Sign)
  | [] => some []
  | [c] => if escape = some c then none else some [.ofChar c]
  | c :: next :: rest =>
    if escape = some c then (signs? escape rest).map (.exactly next :: ·)
    else (signs? escape (next :: rest)).map (.ofChar c :: ·)

/-- They are what its characters stand for. -/
theorem signs?_eq (escape : Option Char) (s : List Char) :
    signs? escape s = (marked? escape s).map (·.map Marked.sign) := by
  fun_induction signs? escape s with
  | case1 => rfl
  | case2 c h => simp [marked?, h]
  | case3 c h => simp [marked?, h, Marked.plain, Marked.sign]
  | case4 c next rest h ih =>
    rw [ih, marked?, if_pos h]
    simp [Function.comp_def, Marked.sign]
  | case5 c next rest h ih => simp [marked?, h, ih, Function.comp_def, Marked.plain, Marked.sign]

end TableApi.Sql
