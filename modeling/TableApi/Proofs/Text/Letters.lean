import TableApi.Proofs.Text.Chars
import TableApi.Text.Sanitize

/-!
# Words that agree but for case

`sameLetters` compares the words of a language in any case of their ASCII letters. It is equality of
the folded texts, and a word that agrees with one made of letters is made of letters itself.

Where a text is compared in lower case, the full case map is used. In ASCII it is the same
comparison (`lowered_eq_iff`), since there lower case goes letter by letter.
-/

namespace TableApi.Text

/-- The words agree where their folded texts are equal. -/
theorem sameLetters_iff {a b : String} :
    sameLetters a b = true ↔ a.toList.map Char.toLower = b.toList.map Char.toLower := by
  rw [sameLetters, beq_iff_eq]

@[simp] theorem sameLetters_refl (a : String) : sameLetters a a = true :=
  sameLetters_iff.2 rfl

/-- Words that agree are the same to every comparison, from its left. -/
theorem sameLetters_left {a b : String} (h : sameLetters a b = true) (c : String) :
    sameLetters b c = sameLetters a c := by
  rw [sameLetters, sameLetters, sameLetters_iff.1 h]

/-- Words that agree are the same to every comparison, from its right. -/
theorem sameLetters_right {a b : String} (h : sameLetters a b = true) (c : String) :
    sameLetters c b = sameLetters c a := by
  rw [sameLetters, sameLetters, sameLetters_iff.1 h]

/-- Folding changes the capitals of ASCII only. -/
theorem isUpper_or_toLower_eq (c : Char) : c.isUpper = true ∨ c.toLower = c := by
  by_cases hrange : c.val ≥ 'A'.val ∧ c.val ≤ 'Z'.val
  · exact .inl (decide_eq_true hrange)
  · exact .inr (dif_neg hrange)

theorem toNat_lt_of_isUpper {c : Char} (h : c.isUpper = true) : c.toNat < 128 := by
  have hle : c.toNat ≤ 'Z'.toNat := (of_decide_eq_true h).2
  exact Nat.lt_of_le_of_lt hle (by decide)

/-- What has a small letter in ASCII is in ASCII. -/
theorem toNat_lt_of_toLower {c : Char} (h : c.toLower.toNat < 128) : c.toNat < 128 := by
  rcases isUpper_or_toLower_eq c with hupper | hsame
  · exact toNat_lt_of_isUpper hupper
  · rwa [hsame] at h

/-- The characters of names are in ASCII. -/
theorem toNat_lt_of_isNameChar {c : Char} (h : isNameChar c = true) : c.toNat < 128 := by
  have hkinds : (((c.isUpper || c.isLower) || c.isDigit) || c == '_') = true := h
  simp only [Bool.or_eq_true, beq_iff_eq] at hkinds
  rcases hkinds with ((hupper | hlower) | hdigit) | rfl
  · exact toNat_lt_of_isUpper hupper
  · have hle : c.toNat ≤ 'z'.toNat := of_decide_eq_true (Bool.and_eq_true_iff.1 hlower).2
    exact Nat.lt_of_le_of_lt hle (by decide)
  · have hle : c.toNat ≤ '9'.toNat := of_decide_eq_true (Bool.and_eq_true_iff.1 hdigit).2
    exact Nat.lt_of_le_of_lt hle (by decide)
  · decide

theorem isBlank_of_isNameChar {c : Char} (h : isNameChar c = true) : isBlank c = false := by
  have hascii : ∀ c : Char, c.toNat < 128 → isNameChar c = true → isBlank c = false :=
    forall_toNat_lt (by decide +kernel)
  exact hascii c (toNat_lt_of_isNameChar h) h

theorem isAlpha_of_toLower {c : Char} (h : c.toLower.isAlpha = true) : c.isAlpha = true := by
  rcases isUpper_or_toLower_eq c with hupper | hsame
  · exact Bool.or_eq_true_iff.2 (.inl hupper)
  · rwa [hsame] at h

/-- A word that agrees with one made of letters is made of letters. -/
theorem isAlpha_of_sameLetters {a b : String} (h : sameLetters a b = true)
    (ha : ∀ c ∈ a.toList.map Char.toLower, c.isAlpha = true) :
    ∀ c ∈ b.toList, c.isAlpha = true := by
  intro c hc
  rw [sameLetters_iff.1 h] at ha
  exact isAlpha_of_toLower (ha _ (List.mem_map_of_mem hc))

/-- It is empty only if the other one is. -/
theorem ne_empty_of_sameLetters {a b : String} (h : sameLetters a b = true) (ha : a ≠ "") :
    b ≠ "" := by
  rintro rfl
  have hmap : a.toList.map Char.toLower = [] := sameLetters_iff.1 h
  exact ha (String.toList_eq_nil_iff.1 (List.map_eq_nil_iff.1 hmap))

/-! ## Lower case -/

/-- **Lower case in ASCII** goes letter by letter. -/
theorem lower_eq_map {s : List Char} (h : ∀ c ∈ s, c.toNat < 128) :
    lower s = s.map Char.toLower := by
  -- what stands before a character matters to a capital sigma only
  have hafter : ∀ before, lowerAfter before s = s.map Char.toLower := by
    induction s with
    | nil => exact fun _ => rfl
    | cons c s ih =>
      obtain ⟨hc, hs⟩ := List.forall_mem_cons.1 h
      have hsigma : c ≠ 'Σ' := by
        rintro rfl
        exact absurd hc (by decide)
      intro before
      rw [lowerAfter, if_neg hsigma, lowerChar, if_pos hc, ih hs]
      rfl
  exact hafter []

/-- **A text of ASCII has a small word for its lower case exactly where it agrees with it.** -/
theorem lowered_eq_iff {s word : String} (hs : ∀ c ∈ s.toList, c.toNat < 128)
    (hword : ∀ c ∈ word.toList, c.toLower = c) :
    lowered s = word ↔ sameLetters s word = true := by
  have hfold : word.toList.map Char.toLower = word.toList :=
    (List.map_congr_left hword).trans (List.map_id _)
  rw [sameLetters_iff, hfold, lowered, lower_eq_map hs]
  constructor
  · rintro rfl
    exact String.toList_ofList.symm
  · intro h
    rw [h, String.ofList_toList]

/-- A text that agrees with a small word of ASCII has it for its lower case. -/
theorem lowered_eq_of_sameLetters {s word : String}
    (hword : ∀ c ∈ word.toList, c.toNat < 128 ∧ c.toLower = c)
    (h : sameLetters s word = true) : lowered s = word := by
  refine (lowered_eq_iff (fun c hc => ?_) fun c hc => (hword c hc).2).2 h
  have hmem : c.toLower ∈ word.toList.map Char.toLower :=
    sameLetters_iff.1 h ▸ List.mem_map_of_mem hc
  obtain ⟨d, hd, hlower⟩ := List.mem_map.1 hmem
  rw [(hword d hd).2] at hlower
  exact toNat_lt_of_toLower (hlower ▸ (hword d hd).1)

end TableApi.Text
