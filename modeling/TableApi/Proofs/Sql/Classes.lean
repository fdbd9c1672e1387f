import TableApi.Proofs.Filter.Patterns

/-!
# Patterns with character classes

One dialect has a wildcard more than the others: between square brackets stand the characters, or
the ranges of characters, one of which is matched; after `[^` stand those that are not. Inside a
class an escaped character is one of its characters too, so a class ends at the first closing
bracket that is not escaped. A class that does not end leaves the pattern without signs, and then
it matches nothing.

A class takes at least two characters to write and matches one. So whatever has a class in it
matches a text that is shorter than the pattern's own characters, if it matches any
(`width_lt_of_classSigns?`, `Matches.exists_shortest`).
-/

namespace TableApi.Sql

/-! ## Reading -/

/-- The character is among those of a class, or in one of its ranges. -/
def inRanges (c : Char) : List Marked → Bool
  | low :: ⟨'-', false⟩ :: high :: rest =>
    (low.char ≤ c && c ≤ high.char) || inRanges c rest
  | m :: rest => m.char == c || inRanges c rest
  | [] => false

/-- **What a class stands for**, given what stands between its brackets. -/
def Sign.ofClass : List Marked → Sign
  | ⟨'^', false⟩ :: ranges => .one fun c => !inRanges c ranges
  | ranges => .one fun c => inRanges c ranges

/-- **The signs of a pattern with classes.** `inside` holds what was read of a class that has not
ended, last character first. -/
def classSigns? (inside : Option (List Marked)) : List Marked → Option (List Sign)
  | [] => if inside.isSome then none else some []
  | m :: rest =>
    match inside with
    | some ranges =>
      if m = .plain ']' then (classSigns? none rest).map (.ofClass ranges.reverse :: ·)
      else classSigns? (some (m :: ranges)) rest
    | none =>
      if m = .plain '[' then classSigns? (some []) rest
      else (classSigns? none rest).map (m.sign :: ·)

/-- **The text matches a pattern**, given as a literal with what follows it, where patterns have
classes. -/
def Likes (literal clause : String) (s : List Char) : Prop :=
  ∃ escape pattern ms signs, EscapedBy .mssql clause.toList escape ∧
    readLiteral? .mssql literal.toList = some pattern ∧ marked? escape pattern = some ms ∧
    classSigns? none ms = some signs ∧ Matches signs s

/-! ## Patterns without classes -/

/-- Without opening brackets there are no classes. -/
theorem classSigns?_of_not_mem {ms : List Marked} (h : .plain '[' ∉ ms) :
    classSigns? none ms = some (ms.map Marked.sign) := by
  induction ms with
  | nil => rfl
  | cons m ms ih =>
    obtain ⟨hm, hms⟩ := not_or.1 fun hmem => h (List.mem_cons.2 hmem)
    simp [classSigns?, Ne.symm hm, ih hms]

/-! ## Patterns with classes -/

/-- How many characters a sign takes at least. -/
def Sign.width : Sign → Nat
  | .many => 0
  | .one _ => 1

/-- How many characters the signs of a pattern take at least. -/
def width : List Sign → Nat
  | [] => 0
  | g :: signs => g.width + width signs

/-- How many characters of a pattern could stand for themselves: all but the wildcard `%`. -/
def weight (ms : List Marked) : Nat :=
  ms.countP (· ≠ .plain '%')

/-- **What matches can be cut down** to the characters that the signs take. -/
theorem Matches.exists_shortest {p : List Sign} {s : List Char} (h : Matches p s) :
    ∃ t, Matches p t ∧ t.length = width p := by
  induction h with
  | nil => exact ⟨[], .nil, rfl⟩
  | @one allowed c p s here _ ih =>
    obtain ⟨t, ht, hlength⟩ := ih
    refine ⟨c :: t, .one here ht, ?_⟩
    rw [List.length_cons, hlength, width, Sign.width, Nat.add_comm]
  | stop _ ih =>
    obtain ⟨t, ht, hlength⟩ := ih
    refine ⟨t, .stop ht, ?_⟩
    simpa [width, Sign.width] using hlength
  | pass _ ih => exact ih

/-- How much a character adds to the weight. -/
@[simp] theorem weight_cons (m : Marked) (ms : List Marked) :
    weight (m :: ms) = weight ms + if m = .plain '%' then 0 else 1 := by
  by_cases h : m = .plain '%' <;> simp [weight, h]

/-- A character by itself takes no more than it weighs. -/
theorem Marked.width_sign_le (m : Marked) : m.sign.width ≤ if m = .plain '%' then 0 else 1 := by
  by_cases h : m = .plain '%'
  · subst h
    decide
  · rw [if_neg h]
    cases m.sign <;> simp [Sign.width]

@[simp] theorem Sign.width_ofClass (ranges : List Marked) : (Sign.ofClass ranges).width = 1 := by
  unfold Sign.ofClass
  split <;> rfl

/-- **The signs of a pattern** take no more characters than it has, within a class and outside. -/
theorem width_le_of_classSigns? {inside : Option (List Marked)} {ms : List Marked}
    {signs : List Sign} (h : classSigns? inside ms = some signs) : width signs ≤ weight ms := by
  induction ms generalizing inside signs with
  | nil =>
    rw [classSigns?] at h
    split at h
    · simp at h
    · obtain rfl := Option.some.inj h
      simp [width]
  | cons m ms ih =>
    rw [weight_cons]
    cases inside with
    | some ranges =>
      rw [classSigns?] at h
      split at h
      · next hclose =>
        obtain ⟨later, hlater, rfl⟩ := Option.map_eq_some_iff.1 h
        have hrest := ih hlater
        have hcounts : (if m = .plain '%' then 0 else 1) = 1 := by
          rw [hclose]
          decide
        rw [width, Sign.width_ofClass, hcounts]
        omega
      · have hrest := ih h
        omega
    | none =>
      rw [classSigns?] at h
      split at h
      · have hrest := ih h
        omega
      · obtain ⟨later, hlater, rfl⟩ := Option.map_eq_some_iff.1 h
        have hrest := ih hlater
        have hsign := m.width_sign_le
        rw [width]
        omega

/-- **A class takes fewer** than it is written with. -/
theorem width_lt_of_classSigns? {ms : List Marked} {signs : List Sign}
    (h : classSigns? none ms = some signs) (hclass : .plain '[' ∈ ms) :
    width signs < weight ms := by
  induction ms generalizing signs with
  | nil => simp at hclass
  | cons m ms ih =>
    rw [weight_cons]
    rw [classSigns?] at h
    split at h
    · next hopen =>
      have hrest := width_le_of_classSigns? h
      have hcounts : (if m = .plain '%' then 0 else 1) = 1 := by
        rw [hopen]
        decide
      omega
    · next hopen =>
      obtain ⟨later, hlater, rfl⟩ := Option.map_eq_some_iff.1 h
      have hrest := ih hlater ((List.mem_cons.1 hclass).resolve_left (Ne.symm hopen))
      have hsign := m.width_sign_le
      rw [width]
      omega

end TableApi.Sql
