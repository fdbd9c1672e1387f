import Mathlib.Data.List.Basic

/-!
# Deciding facts about the characters of a text

A fact about every character of a text is decided by going through the text. Characters are a finite
type, so without this instance all of them could be gone through instead. A fact about every
character below a code point is decided by going through the code points.
-/

namespace TableApi.Text

/-- **Character by character.** -/
instance (priority := high) decidableForallChar (s : List Char) (p : Char → Prop)
    [DecidablePred p] : Decidable (∀ c ∈ s, p c) :=
  List.decidableBAll p s

/-- **Code point by code point.** -/
theorem forall_toNat_lt {bound : Nat} {p : Char → Prop} (h : ∀ n < bound, p (Char.ofNat n))
    (c : Char) (hc : c.toNat < bound) : p c := by
  have hp := h c.toNat hc
  rwa [Char.ofNat_toNat] at hp

end TableApi.Text
