import TableApi.Proofs.Text.Letters

/-!
# Upper case and ASCII

A text in upper case stays as it is when it is put in upper case again, as far as ASCII is
concerned: `upper_upper`. What could go wrong is a capital whose own capital is an ASCII letter. The
characters beyond ASCII that lend themselves to that are few (`lenders`), and none of them is a
capital. So a text in upper case that agrees with a word in capitals but for case is that word
(`uppered_eq_of_sameLetters`).
-/

namespace TableApi.Text

/-- The code points beyond ASCII whose upper case has an ASCII letter in it. -/
def lenders : List Nat := [
  0xDF, 0x131, 0x149, 0x17F, 0x1F0, 0x1E96, 0x1E97, 0x1E98, 0x1E99, 0x1E9A, 0xFB00, 0xFB01, 0xFB02,
  0xFB03, 0xFB04, 0xFB05, 0xFB06]

/-! ## The tables -/

/-- An expansion is not empty. Whatever is ASCII in it is a capital, and then it is the expansion of
a lender; no lender is in it. -/
theorem upperExpansions_spec : ∀ p ∈ upperExpansions, p.2 ≠ [] ∧ ∀ x ∈ p.2,
    x.toNat ∉ lenders ∧ (x.toNat < 128 → x.toUpper = x ∧ p.1.toNat ∈ lenders) := by
  decide +kernel

/-- The images of a run are characters, either all beyond ASCII or the image of one lender, which is
a capital. -/
theorem upperRuns_spec : ∀ r ∈ upperRuns, r.last < 128 ∨
    (128 ≤ (r.first : Int) + r.shift ∧
      ((r.last : Int) + r.shift < 0xD800 ∨
        0xDFFF < (r.first : Int) + r.shift ∧ (r.last : Int) + r.shift < 0x110000)) ∨
    (r.first = r.last ∧ r.first ∈ lenders ∧ (r.shifted r.first).toNat ∉ lenders ∧
      (r.shifted r.first).toUpper = r.shifted r.first) := by
  decide +kernel

theorem upperRuns_lenders : ∀ r ∈ upperRuns, ∀ n ∈ lenders,
    ¬(r.first ≤ (n - r.shift).toNat ∧ (n - r.shift).toNat ≤ r.last ∧
      ((n - r.shift).toNat - r.first) % r.step = 0) := by
  decide +kernel

theorem upperChar_lenders : ∀ n ∈ lenders, upperChar (Char.ofNat n) ≠ [Char.ofNat n] := by
  decide +kernel

/-! ## Characters -/

/-- **What a capital is like**: it is no lender, and in ASCII it is its own capital. -/
structure IsCapital (c : Char) : Prop where
  not_lender : c.toNat ∉ lenders
  ascii : c.toNat < 128 → c.toUpper = c

/-- A character beyond ASCII in upper case: an expansion, the image of a run, or itself. -/
theorem upperChar_cases {c : Char} (hc : 128 ≤ c.toNat) :
    (∃ p ∈ upperExpansions, p.1 = c ∧ upperChar c = p.2) ∨
      (∃ r ∈ upperRuns, r.contains c.toNat = true ∧ upperChar c = [r.shifted c.toNat]) ∨
      upperChar c = [c] := by
  rw [upperChar, if_neg (by omega), mapCase]
  cases hexp : upperExpansions.lookup c with
  | some cs =>
    obtain ⟨before, after, happ, -⟩ := List.lookup_eq_some_iff.1 hexp
    exact .inl ⟨(c, cs), by rw [happ]; simp, rfl, rfl⟩
  | none =>
    refine .inr ?_
    cases hrun : upperRuns.find? (·.contains c.toNat) with
    | some r =>
      have hcontains : r.contains c.toNat = true := by
        simpa using List.find?_some hrun
      exact .inl ⟨r, List.mem_of_find?_eq_some hrun, hcontains, rfl⟩
    | none => exact .inr rfl

/-- The image of a character under a run that lies beyond ASCII. -/
theorem toNat_shifted {r : CaseRun} {n : Nat} (hn : r.contains n = true)
    (hlow : 128 ≤ (r.first : Int) + r.shift)
    (hvalid : (r.last : Int) + r.shift < 0xD800 ∨
      0xDFFF < (r.first : Int) + r.shift ∧ (r.last : Int) + r.shift < 0x110000) :
    ((r.shifted n).toNat : Int) = n + r.shift := by
  simp only [CaseRun.contains, Bool.and_eq_true, decide_eq_true_eq] at hn
  have hchar : ((n : Int) + r.shift).toNat.isValidChar := by
    rw [Nat.isValidChar]
    omega
  have htoNat : (r.shifted n).toNat = ((n : Int) + r.shift).toNat := by
    rw [CaseRun.shifted, Char.ofNat, dif_pos hchar]
    rfl
  rw [htoNat]
  omega

/-- **Upper case gives capitals.** -/
theorem isCapital_of_mem_upperChar {c d : Char} (h : d ∈ upperChar c) : IsCapital d := by
  by_cases hc : c.toNat < 128
  · have hascii : ∀ c : Char, c.toNat < 128 → c.toUpper.toNat ∉ lenders ∧
        c.toUpper.toUpper = c.toUpper :=
      forall_toNat_lt (by decide +kernel)
    rw [upperChar, if_pos hc, List.mem_singleton] at h
    obtain ⟨hlender, hupper⟩ := hascii c hc
    subst h
    exact ⟨hlender, fun _ => hupper⟩
  · rcases upperChar_cases (Nat.le_of_not_lt hc) with ⟨p, hp, -, hmap⟩ | ⟨r, hr, hn, hmap⟩ | hmap
    · rw [hmap] at h
      obtain ⟨hlender, hupper⟩ := (upperExpansions_spec p hp).2 d h
      exact ⟨hlender, fun hd => (hupper hd).1⟩
    · rw [hmap, List.mem_singleton] at h
      subst h
      have hbounds := hn
      simp only [CaseRun.contains, Bool.and_eq_true, decide_eq_true_eq, beq_iff_eq] at hbounds
      obtain ⟨⟨hfirst, hlast⟩, hstep⟩ := hbounds
      rcases upperRuns_spec r hr with hbefore | ⟨hlow, hvalid⟩ | ⟨hone, -, hlender, hupper⟩
      · omega
      · have himage := toNat_shifted hn hlow hvalid
        refine ⟨fun hmem => upperRuns_lenders r hr _ hmem ?_, fun hd => by omega⟩
        have hback : (((r.shifted c.toNat).toNat : Int) - r.shift).toNat = c.toNat := by omega
        rw [hback]
        exact ⟨hfirst, hlast, hstep⟩
      · have honly : c.toNat = r.first := by omega
        rw [honly]
        exact ⟨hlender, fun _ => hupper⟩
    · rw [hmap, List.mem_singleton] at h
      subst h
      refine ⟨fun hmem => ?_, fun hd => absurd hd hc⟩
      -- a lender is in the tables, so it does not stay as it is
      have hchange := upperChar_lenders d.toNat hmem
      rw [Char.ofNat_toNat] at hchange
      exact hchange hmap

/-- A capital of ASCII is the capital of its small letter. -/
theorem toUpper_toLower : ∀ c : Char, c.toNat < 128 → c.toUpper = c → c.toLower.toUpper = c :=
  forall_toNat_lt (by decide +kernel)

/-- The small letters of ASCII are in ASCII. -/
theorem toNat_toLower_lt : ∀ c : Char, c.toNat < 128 → c.toLower.toNat < 128 :=
  forall_toNat_lt (by decide +kernel)

/-- **A text in upper case that agrees with capitals but for case is equal to them.** -/
theorem uppered_eq_of_sameLetters {s word : String}
    (hword : ∀ c ∈ word.toList, c.toNat < 128 ∧ c.toUpper = c)
    (h : sameLetters word (uppered s) = true) : uppered s = word := by
  rw [sameLetters_iff, uppered, String.toList_ofList] at h
  have hcapital : ∀ d ∈ upper s.toList, d.toLower.toUpper = d := by
    intro d hd
    have hmem : d.toLower ∈ word.toList.map Char.toLower := h ▸ List.mem_map_of_mem hd
    obtain ⟨c, hc, hlower⟩ := List.mem_map.1 hmem
    have hascii : d.toNat < 128 := toNat_lt_of_toLower (hlower ▸ toNat_toLower_lt c (hword c hc).1)
    obtain ⟨e, -, he⟩ := List.mem_flatMap.1 hd
    exact toUpper_toLower d hascii ((isCapital_of_mem_upperChar he).ascii hascii)
  have hback : ∀ t : List Char, (∀ c ∈ t, c.toLower.toUpper = c) →
      (t.map Char.toLower).map Char.toUpper = t := by
    intro t ht
    rw [List.map_map]
    exact (List.map_congr_left (g := id) ht).trans (List.map_id t)
  have hletters : upper s.toList = word.toList := by
    rw [← hback _ hcapital, ← h, hback word.toList fun c hc =>
      toUpper_toLower c (hword c hc).1 (hword c hc).2]
  rw [uppered, hletters, String.ofList_toList]

end TableApi.Text
