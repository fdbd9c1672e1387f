import Mathlib.Data.List.Basic
import TableApi.Filter.Token

/-!
# What tokens are made of

However a filter is written, a bare word keeps word characters only, is not empty and has no two
hyphens in a row, and a quoted text has no quote in it. This holds at top level and in lists
(`valid_of_mem_tokenize`). It is all that the rest of a filter's way to SQL needs to know of the
text that came in.
-/

namespace TableApi.Filter

/-- **A well-formed value**: a word of word characters without two hyphens in a row, or a text
without a quote. -/
def Atom.Valid : Atom → Prop
  | .bare w => w ≠ "" ∧ (∀ c ∈ w.toList, isWordChar c = true) ∧ ¬['-', '-'] <:+: w.toList
  | .quoted s => '\'' ∉ s.toList

/-- A token of well-formed values. -/
def Token.Valid : Token → Prop
  | .atom a => a.Valid
  | .list members => ∀ a ∈ members, a.Valid
  | .openParen | .closeParen => True

/-- A sign that is no word character is not among word characters. -/
theorem not_mem_of_wordChars {s : List Char} (h : ∀ c ∈ s, isWordChar c = true) {c : Char}
    (hc : isWordChar c = false) : c ∉ s := by
  intro hmem
  rw [h c hmem] at hc
  exact absurd hc (by decide)

/-- Characters that are kept as a bare word, once runs of hyphens shrink. -/
theorem valid_bare {s : List Char} (hne : s ≠ []) (h : ∀ c ∈ s, isWordChar c = true) :
    (Atom.bare (String.ofList (Text.squeezeHyphens s))).Valid := by
  have hsub := Text.squeezeHyphens_sublist s
  refine ⟨?_, ?_, ?_⟩
  · rw [Ne, String.ofList_eq_empty_iff]
    intro hnil
    have hhead := Text.head?_squeezeHyphens s
    rw [hnil, List.head?_nil] at hhead
    exact hne (List.head?_eq_none_iff.1 hhead.symm)
  · rw [String.toList_ofList]
    exact fun c hc => h c (hsub.subset hc)
  · rw [String.toList_ofList]
    exact Text.not_infix_squeezeHyphens s

/-! ## Lists -/

/-- The members of a list have no quotes. -/
theorem quote_not_mem_members (inQuote : Bool) (s : List Char) :
    ∀ m ∈ (members inQuote s).1 :: (members inQuote s).2, '\'' ∉ m.text := by
  fun_induction members inQuote s with
  | case1 q => simp
  | case2 q rest m more hmore ih => simpa [hmore] using ih
  | case3 q c rest hc hcomma m more hmore ih => simpa [hmore] using ih
  | case4 q c rest hc hcomma m more hmore ih =>
    have hc' : '\'' ≠ c := fun h => hc h.symm
    simpa [hmore, hc'] using ih

/-- A member without quotes gives a well-formed value. -/
theorem valid_of_atom? {m : Member} {a : Atom} (hm : '\'' ∉ m.text) (h : m.atom? = some a) :
    a.Valid := by
  rw [Member.atom?] at h
  by_cases hq : m.quoted = true
  · rw [if_pos hq] at h
    obtain rfl := Option.some.inj h
    simpa [Atom.Valid] using hm
  · simp only [hq, Bool.false_eq_true, if_false] at h
    by_cases hempty : (Text.sanitize wordMarks m.text).isEmpty = true
    · simp [hempty] at h
    · simp only [hempty, Bool.false_eq_true, if_false, Option.some.injEq] at h
      subst h
      refine valid_bare (fun hnil => hempty ?_) fun c hc => (List.mem_filter.1 hc).2
      rw [Text.sanitize, hnil]
      rfl

/-- The values of a list are well-formed. -/
theorem valid_of_mem_listAtoms {inner : List Char} {a : Atom} (h : a ∈ listAtoms inner) :
    a.Valid := by
  obtain ⟨m, hm, ha⟩ := List.mem_filterMap.1 h
  exact valid_of_atom? (quote_not_mem_members false inner m hm) ha

/-! ## Tokens -/

/-- The word gathered so far is a well-formed token, and so are the tokens if those after it are. -/
theorem valid_wordToken_append {word : List Char} (hw : ∀ c ∈ word, isWordChar c = true)
    {ts : List Token} (hts : ∀ t ∈ ts, t.Valid) : ∀ t ∈ wordToken word ++ ts, t.Valid := by
  intro t ht
  rcases List.mem_append.1 ht with h | h
  · rw [wordToken] at h
    split at h
    · simp at h
    · next hempty =>
      obtain rfl := List.mem_singleton.1 h
      have hne : word.reverse ≠ [] := by
        rw [Ne, List.reverse_eq_nil_iff]
        rintro rfl
        exact hempty rfl
      exact valid_bare hne fun c hc => hw c (List.mem_reverse.1 hc)
  · exact hts t h

/-- **Every token of a text is well-formed**, whatever word was begun before it. -/
theorem valid_of_mem_scan {word s : List Char} (hw : ∀ c ∈ word, isWordChar c = true) :
    ∀ t ∈ scan word s, t.Valid := by
  have hnil : ∀ c ∈ ([] : List Char), isWordChar c = true := by simp
  fun_induction scan word s with
  | case1 word =>
    have hnone : ∀ t ∈ ([] : List Token), t.Valid := by simp
    simpa using valid_wordToken_append hw hnone
  | case2 word rest text after hcut ih =>
    refine valid_wordToken_append hw (List.forall_mem_cons.2 ⟨?_, ih hnil⟩)
    simpa [Token.Valid, Atom.Valid] using (Text.cutAt_eq_some hcut).2
  | case3 word rest hcut ih => exact ih hw
  | case4 word rest hc inner after hcut ih =>
    refine valid_wordToken_append hw (List.forall_mem_cons.2 ⟨?_, ih hnil⟩)
    exact fun a ha => valid_of_mem_listAtoms ha
  | case5 word rest hc hcut ih => exact ih hw
  | case6 word rest hc hc' ih =>
    exact valid_wordToken_append hw (List.forall_mem_cons.2 ⟨trivial, ih hnil⟩)
  | case7 word rest hc hc' hc'' ih =>
    exact valid_wordToken_append hw (List.forall_mem_cons.2 ⟨trivial, ih hnil⟩)
  | case8 word rest _ _ _ _ ih => exact valid_wordToken_append hw (ih hnil)
  | case9 word c rest _ _ _ _ _ hchar ih =>
    -- a word character joins the word that was begun
    exact ih (List.forall_mem_cons.2 ⟨hchar, hw⟩)
  | case10 word c rest _ _ _ _ _ _ ih => exact ih hw

/-- **The tokens of a filter are well-formed.** -/
theorem valid_of_mem_tokenize {text : String} {t : Token} (h : t ∈ tokenize text) : t.Valid :=
  valid_of_mem_scan (by simp) t h

end TableApi.Filter
