import TableApi.Filter.Render
import TableApi.Proofs.Filter.Written

/-!
# What stands around a filter

Blanks, and all other characters that are neither word characters nor signs of the language, are
dropped between tokens. At the two ends of a text they make no difference at all
(`compileAs_padded`): not even where a quote or a bracket of the text is not closed, since what is
looked for then is a quote or a bracket again, and padding has none.
-/

namespace TableApi.Filter

/-- The characters that mean something between words. -/
def syntaxSigns : List Char := ['\'', '[', ']', '(', ')', ',']

/-- **Padding**: no word character and no sign of the language. -/
def isPadding (c : Char) : Bool :=
  !isWordChar c && !syntaxSigns.contains c

variable {c : Char} {pad : List Char}

theorem isPadding_iff : isPadding c = true ↔ isWordChar c = false ∧ c ∉ syntaxSigns := by
  simp [isPadding]

/-- No sign of the language is in padding. -/
theorem not_mem_of_isPadding (h : ∀ c ∈ pad, isPadding c = true) (hc : c ∈ syntaxSigns) :
    c ∉ pad :=
  fun hmem => (isPadding_iff.1 (h c hmem)).2 hc

theorem toNat_lt_of_isWordChar (h : isWordChar c = true) : c.toNat < 128 := by
  have hmarks : ∀ c ∈ wordMarks.toList, c.toNat < 128 := by decide
  rcases Bool.or_eq_true_iff.1 h with hname | hmark
  · exact Text.toNat_lt_of_isNameChar hname
  · exact hmarks c (List.contains_iff_mem.1 hmark)

/-- **Blanks are padding.** -/
theorem isPadding_of_isBlank (h : Text.isBlank c = true) : isPadding c = true := by
  have hascii : ∀ c : Char, c.toNat < 128 → Text.isBlank c = true → isPadding c = true :=
    Text.forall_toNat_lt (by decide +kernel)
  have hsigns : ∀ c ∈ syntaxSigns, Text.isBlank c = false := by decide
  by_cases hc : c.toNat < 128
  · exact hascii c hc h
  · refine isPadding_iff.2 ⟨?_, fun hmem => ?_⟩
    · exact Bool.eq_false_iff.2 fun hword => hc (toNat_lt_of_isWordChar hword)
    · simp [hsigns c hmem] at h

/-- Padding is dropped, in the middle of a word too. -/
theorem scan_cons_padding (h : isPadding c = true) (word s : List Char) :
    scan word (c :: s) = scan word s := by
  obtain ⟨hword, hsign⟩ := isPadding_iff.1 h
  simp only [syntaxSigns, List.mem_cons, List.not_mem_nil, or_false, not_or] at hsign
  obtain ⟨hquote, hbracket, -, hopen, hclose, hcomma⟩ := hsign
  rw [scan, if_neg hquote, if_neg hbracket, if_neg hopen, if_neg hclose, if_neg hcomma, hword]
  simp

/-- **Padding before a text is dropped.** -/
theorem scan_padding_append (h : ∀ c ∈ pad, isPadding c = true) (word s : List Char) :
    scan word (pad ++ s) = scan word s := by
  induction pad with
  | nil => rfl
  | cons c pad ih =>
    obtain ⟨hc, hpad⟩ := List.forall_mem_cons.1 h
    rw [List.cons_append, scan_cons_padding hc, ih hpad]

/-- A list ends where it ends without the padding. -/
theorem cutList_append_padding (h : ∀ c ∈ pad, isPadding c = true) (s : List Char) :
    cutList (s ++ pad) = (cutList s).map fun (inner, after) => (inner, after ++ pad) := by
  rw [cutList, Text.cutAt_append_right (not_mem_of_isPadding h (by decide)), Option.filter_map]
  rfl

/-- **Padding after a text is dropped.** A quote or a bracket that the text does not close is not
closed by the padding. -/
theorem scan_append_padding (h : ∀ c ∈ pad, isPadding c = true) (word s : List Char) :
    scan word (s ++ pad) = scan word s := by
  have hquote : ∀ s, Text.cutAt '\'' (s ++ pad) =
      (Text.cutAt '\'' s).map fun (text, after) => (text, after ++ pad) :=
    Text.cutAt_append_right (not_mem_of_isPadding h (by decide))
  fun_induction scan word s with
  | case1 word => simpa [scan] using scan_padding_append h word []
  | case2 word rest text after hcut ih =>
    have hpadded : Text.cutAt '\'' (rest ++ pad) = some (text, after ++ pad) := by
      rw [hquote, hcut]
      rfl
    rw [List.cons_append, scan_quote hpadded, ih]
  | case3 word rest hcut ih =>
    have hpadded : Text.cutAt '\'' (rest ++ pad) = none := by
      rw [hquote, hcut]
      rfl
    rw [List.cons_append, scan_quote_of_none hpadded, ih]
  | case4 word rest inner after hcut hc ih =>
    have hpadded : cutList (rest ++ pad) = some (inner, after ++ pad) := by
      rw [cutList_append_padding h, hcut]
      rfl
    rw [List.cons_append, scan_bracket hpadded, ih]
  | case5 word rest hcut hc ih =>
    have hpadded : cutList (rest ++ pad) = none := by
      rw [cutList_append_padding h, hcut]
      rfl
    rw [List.cons_append, scan_bracket_of_none hpadded, ih]
  | case6 word rest _ _ ih => simp [scan, ih]
  | case7 word rest _ _ _ ih => simp [scan, ih]
  | case8 word rest _ _ _ _ ih => simp [scan, ih]
  | case9 word c rest h₁ h₂ h₃ h₄ h₅ hchar ih => simp [scan, h₁, h₂, h₃, h₄, h₅, hchar, ih]
  | case10 word c rest h₁ h₂ h₃ h₄ h₅ hchar ih => simp [scan, h₁, h₂, h₃, h₄, h₅, hchar, ih]

/-- **Padding around a filter makes no difference**, whatever the filter is: its tokens, its clauses
and its SQL stay as they are, and so do its errors. -/
theorem compileAs_padded {before after : String} (hbefore : ∀ c ∈ before.toList, isPadding c = true)
    (hafter : ∀ c ∈ after.toList, isPadding c = true) (text : String) :
    tokenize (before ++ text ++ after) = tokenize text ∧
      ∀ (d : Dialect) (mode : Mode), parseText d (before ++ text ++ after) = parseText d text ∧
        compileAs mode d (before ++ text ++ after) = compileAs mode d text := by
  have htokens : tokenize (before ++ text ++ after) = tokenize text := by
    rw [tokenize, String.toList_append, String.toList_append, scan_append_padding hafter,
      scan_padding_append hbefore, tokenize]
  refine ⟨htokens, fun d mode => ?_⟩
  have hparse : parseText d (before ++ text ++ after) = parseText d text := by
    rw [parseText, htokens, parseText]
  exact ⟨hparse, by rw [compileAs, hparse, compileAs]⟩

/-- A list and a quoted text that are not closed stay so. -/
theorem compileAs_padded_unclosed :
    (∀ c ∈ "\t ;".toList, isPadding c = true) ∧ (∀ c ∈ " =\"\n".toList, isPadding c = true) ∧
      compileAs .values .sqlite "\t ;name,in,[a,'b =\"\n" =
        compileAs .values .sqlite "name,in,[a,'b" := by
  have hbefore : ∀ c ∈ "\t ;".toList, isPadding c = true := by decide
  have hafter : ∀ c ∈ " =\"\n".toList, isPadding c = true := by decide
  exact ⟨hbefore, hafter,
    ((compileAs_padded hbefore hafter "name,in,[a,'b").2 .sqlite .values).2⟩

end TableApi.Filter
