import Mathlib.Data.List.TakeDrop
import Mathlib.Data.List.TakeWhile
import TableApi.Json.Token

/-!
# Numbers as they are written

The text of a number has no character but those of `isNumberChar`, and starts with a digit or a
minus (`Numeral.chars_of_ofChars?`), so a lexer knows where it starts and where it ends. A whole
number is written by its digits (`Numeral.ofChars?_toDigits`), and they are read back as that number
as long as it fits a word (`Numeral.value?_ofNat`).
-/

namespace TableApi.Json

/-! ## The characters of a number -/

theorem isNumberChar_of_isDigit {c : Char} (h : c.isDigit = true) : isNumberChar c = true := by
  simp [isNumberChar, h]

/-- The digits at the start of a text are digits, and the rest comes after them. -/
theorem digitsSpan_spec (s : List Char) :
    s = (digitsSpan s).1 ++ (digitsSpan s).2 ∧ ∀ c ∈ (digitsSpan s).1, c.isDigit = true := by
  rw [digitsSpan, List.span_eq_takeWhile_dropWhile]
  exact ⟨List.takeWhile_append_dropWhile.symm, fun c hc => List.mem_takeWhile_imp hc⟩

/-- The numeral of a text without a sign. -/
def Numeral.unsigned? (negative : Bool) (s : List Char) : Option Numeral :=
  let (whole, s) := digitsSpan s
  if whole.isEmpty ∨ (whole.head? = some '0' ∧ whole.length ≠ 1) then none
  else
    match s with
    | '.' :: r =>
      let (fraction, r) := digitsSpan r
      if fraction.isEmpty then none
      else (exponent? r).map fun e => ⟨negative, whole, fraction, e⟩
    | r => (exponent? r).map fun e => ⟨negative, whole, [], e⟩

/-- A minus before a number is its sign. -/
@[simp] theorem Numeral.ofChars?_minus (s : List Char) : ofChars? ('-' :: s) = unsigned? true s :=
  rfl

theorem Numeral.ofChars?_eq_unsigned? {c : Char} (h : c ≠ '-') (s : List Char) :
    ofChars? (c :: s) = unsigned? false (c :: s) := by
  unfold ofChars?
  split
  next negative rest heq =>
  split at heq
  · next r hr => exact absurd (List.cons.inj hr).1 h
  · obtain ⟨rfl, rfl⟩ := Prod.mk.inj heq
    rfl

/-- An exponent is a mark, perhaps a sign, and digits. -/
theorem isNumberChar_of_exponent? {s : List Char} {e : Option Int} (h : exponent? s = some e) :
    ∀ c ∈ s, isNumberChar c = true := by
  unfold exponent? at h
  split at h
  · simp
  · next mark rest =>
    obtain ⟨hmark, h⟩ := Option.ite_none_right_eq_some.1 h
    split at h
    next negative digits hcut =>
    obtain ⟨⟨-, hdigits⟩, -⟩ := Option.ite_none_right_eq_some.1 h
    have hrest : ∀ c ∈ rest, c = '+' ∨ c = '-' ∨ c ∈ digits := by
      split at hcut <;> obtain ⟨-, rfl⟩ := Prod.mk.inj hcut <;> simp +contextual
    have hmarked : isNumberChar mark = true := by
      rcases hmark with rfl | rfl <;> rfl
    refine List.forall_mem_cons.2 ⟨hmarked, fun c hc => ?_⟩
    rcases hrest c hc with rfl | rfl | hc
    · rfl
    · rfl
    · exact isNumberChar_of_isDigit (List.all_eq_true.1 hdigits c hc)

/-- The text of a number without a sign starts with a digit, and consists of number characters. -/
theorem Numeral.chars_of_unsigned? {negative : Bool} {s : List Char} {n : Numeral}
    (h : unsigned? negative s = some n) :
    (∃ c ∈ s.head?, c.isDigit = true) ∧ ∀ c ∈ s, isNumberChar c = true := by
  unfold unsigned? at h
  obtain ⟨hs, hdigits⟩ := digitsSpan_spec s
  generalize digitsSpan s = parts at h hs hdigits
  obtain ⟨whole, rest⟩ := parts
  dsimp only at h hs hdigits
  replace ⟨hwhole, h⟩ := Option.ite_none_left_eq_some.1 h
  have hrest : ∀ c ∈ rest, isNumberChar c = true := by
    split at h
    · next r =>
      obtain ⟨hr, hfraction⟩ := digitsSpan_spec r
      obtain ⟨-, hexponent⟩ := Option.ite_none_left_eq_some.1 h
      obtain ⟨e, he, -⟩ := Option.map_eq_some_iff.1 hexponent
      refine List.forall_mem_cons.2 ⟨rfl, ?_⟩
      rw [hr]
      exact List.forall_mem_append.2
        ⟨fun c hc => isNumberChar_of_isDigit (hfraction c hc), isNumberChar_of_exponent? he⟩
    · obtain ⟨e, he, -⟩ := Option.map_eq_some_iff.1 h
      exact isNumberChar_of_exponent? he
  subst hs
  refine ⟨?_, List.forall_mem_append.2
    ⟨fun c hc => isNumberChar_of_isDigit (hdigits c hc), hrest⟩⟩
  cases whole with
  | nil => exact absurd (.inl rfl) hwhole
  | cons c whole => exact ⟨c, rfl, hdigits c (List.mem_cons_self ..)⟩

/-- **The text of a number** starts with a digit or a minus, and consists of number characters. -/
theorem Numeral.chars_of_ofChars? {s : List Char} {n : Numeral} (h : ofChars? s = some n) :
    (∃ c ∈ s.head?, c.isDigit = true ∨ c = '-') ∧ ∀ c ∈ s, isNumberChar c = true := by
  cases s with
  | nil => simp [ofChars?, digitsSpan, List.span, List.span.loop] at h
  | cons c s =>
    by_cases hc : c = '-'
    · subst hc
      exact ⟨⟨'-', rfl, .inr rfl⟩, List.forall_mem_cons.2
        ⟨rfl, (chars_of_unsigned? (ofChars?_minus s ▸ h)).2⟩⟩
    · obtain ⟨⟨d, hd, hdigit⟩, hall⟩ := chars_of_unsigned? (ofChars?_eq_unsigned? hc s ▸ h)
      exact ⟨⟨d, hd, .inl hdigit⟩, hall⟩

/-! ## Whole numbers -/

/-- A positive number is written without a leading zero. -/
theorem head?_toDigits {n : Nat} (hn : 0 < n) : (Nat.toDigits 10 n).head? ≠ some '0' := by
  induction n using Nat.strongRecOn with
  | ind n ih =>
    by_cases hlt : n < 10
    · have hdigit : ∀ k < 10, 0 < k → Nat.digitChar k ≠ '0' := by decide
      simpa [Nat.toDigits_of_lt_base hlt] using hdigit n hlt hn
    · -- the first digit is that of the tens
      have hle : 10 ≤ n := Nat.le_of_not_lt hlt
      have htens := ih (n / 10) (by omega) (by omega)
      obtain ⟨c, s, hs⟩ := List.exists_cons_of_ne_nil (Nat.toDigits_ne_nil (n := n / 10) (b := 10))
      rw [Nat.toDigits_of_base_le (by omega) hle, hs]
      simpa [hs] using htens

/-- The numeral of a whole number. -/
def Numeral.ofNat (n : Nat) : Numeral :=
  ⟨false, Nat.toDigits 10 n, [], none⟩

/-- **The digits of a whole number are its numeral.** -/
@[simp] theorem Numeral.ofChars?_toDigits (n : Nat) :
    ofChars? (Nat.toDigits 10 n) = some (ofNat n) := by
  have hdigits : ∀ c ∈ Nat.toDigits 10 n, c.isDigit = true := fun c hc =>
    Nat.isDigit_of_mem_toDigits (by omega) (by omega) hc
  have hlead : (Nat.toDigits 10 n).head? = some '0' → (Nat.toDigits 10 n).length = 1 := by
    intro h
    by_cases hn : 0 < n
    · exact absurd h (head?_toDigits hn)
    · obtain rfl : n = 0 := by omega
      rfl
  have hspan : digitsSpan (Nat.toDigits 10 n) = (Nat.toDigits 10 n, []) := by
    rw [digitsSpan, List.span_eq_takeWhile_dropWhile, List.takeWhile_eq_self_iff.2 hdigits,
      List.dropWhile_eq_nil_iff.2 hdigits]
  obtain ⟨c, s, hs⟩ := List.exists_cons_of_ne_nil (Nat.toDigits_ne_nil (n := n) (b := 10))
  have hc : c ≠ '-' := by
    rintro rfl
    have hminus := hdigits '-' (by simp [hs])
    simp at hminus
  rw [ofNat]
  rw [hs] at hlead hspan ⊢
  rw [ofChars?_eq_unsigned? hc, unsigned?, hspan]
  have hwhole : ¬((c :: s).isEmpty = true ∨
      (c :: s).head? = some '0' ∧ (c :: s).length ≠ 1) := by
    rintro (h | ⟨h, hlength⟩)
    · simp at h
    · exact hlength (hlead h)
  simp only [if_neg hwhole]
  rfl

/-- The text of a whole number is its digits. -/
@[simp] theorem toList_text_int (n : Nat) : (Number.int n).text.toList = Nat.toDigits 10 n := by
  show (toString (n : Int)).toList = _
  rw [← Nat.toList_repr]
  rfl

/-! ## Their values -/

/-- The digits that are taken fit a word. -/
theorem takeDigits_le {significand : Nat} (h : significand ≤ Number.maxInt.toNat) (s : List Char) :
    (takeDigits significand s).1 ≤ Number.maxInt.toNat := by
  induction s generalizing significand with
  | nil => exact h
  | cons c s ih =>
    rw [takeDigits]
    dsimp only
    split
    · next hnext => exact ih hnext
    · exact h

/-- An integer that is read fits a word. -/
theorem Numeral.le_maxInt_of_value? {n : Numeral} {k : Int} (h : n.value? = some (.int k)) :
    k ≤ Number.maxInt := by
  unfold value? at h
  dsimp only at h
  split at h
  · have hle := takeDigits_le (Nat.zero_le _) n.whole
    have hmax : (Number.maxInt.toNat : Int) = Number.maxInt := rfl
    have hk := Number.int.inj (Option.some.inj h)
    split at hk <;> omega
  · obtain ⟨x, -, hx⟩ := Option.map_eq_some_iff.1 h
    cases hx

/-- Digits whose number fits a word are all taken. -/
theorem takeDigits_eq {significand : Nat} {s : List Char}
    (h : Nat.ofDigitChars 10 s significand ≤ Number.maxInt.toNat) :
    takeDigits significand s = (Nat.ofDigitChars 10 s significand, s.length) := by
  induction s generalizing significand with
  | nil => rfl
  | cons c s ih =>
    have hnext : significand * 10 + (c.toNat - 48) = 10 * significand + (c.toNat - '0'.toNat) := by
      rw [Nat.mul_comm]
      rfl
    rw [Nat.ofDigitChars_cons] at h
    have hle : 10 * significand + (c.toNat - '0'.toNat) ≤ Number.maxInt.toNat := by
      refine Nat.le_trans ?_ h
      rw [Nat.ofDigitChars_eq_ofDigitChars_zero]
      exact Nat.le_trans (Nat.le_mul_of_pos_left _ (Nat.pow_pos (by omega))) (Nat.le_add_right _ _)
    rw [takeDigits]
    dsimp only
    rw [hnext, if_pos hle, ih h, Nat.ofDigitChars_cons]
    rfl

/-- **A numeral of a whole number that fits a word has that number for its value.** -/
@[simp] theorem Numeral.value?_ofNat {n : Nat} (h : n ≤ Number.maxInt.toNat) :
    (ofNat n).value? = some (.int n) := by
  have htake : takeDigits 0 (Nat.toDigits 10 n) = (n, (Nat.toDigits 10 n).length) := by
    rw [takeDigits_eq (by rwa [Nat.ofDigitChars_ten_toDigits]), Nat.ofDigitChars_ten_toDigits]
  simp [value?, ofNat, htake]

end TableApi.Json
