import TableApi.Proofs.Filter.Written

/-!
# The values that a filter's text can give

Statements are written from the values of tokens, so the values are where a text could get anything
into a statement. Those that some text gives, at top level or in a list, are exactly the clean ones
(`exists_mem_tokenize_iff`): a bare word can neither open a comment nor bring in a sign other than
those of names, and a quoted text cannot close its quote.
-/

namespace TableApi.Filter

/-- The values of a token: its own, or the members of a list. -/
def Token.atoms : Token → List Atom
  | .atom a => [a]
  | .list members => members
  | .openParen | .closeParen => []

/-- **A clean value**: a word that is not empty, of ASCII letters, digits and the marks of names,
without two hyphens in a row; or a text without a single quote. -/
def Atom.Clean : Atom → Prop
  | .bare w => w ≠ "" ∧ (∀ c ∈ w.toList, c.isAlphanum = true ∨ c ∈ nameMarks) ∧
      ¬['-', '-'] <:+: w.toList
  | .quoted s => '\'' ∉ s.toList

/-- The characters of bare words are those of names. -/
theorem isWordChar_iff {c : Char} : isWordChar c = true ↔ c.isAlphanum = true ∨ c ∈ nameMarks := by
  have hmarks : c ∈ nameMarks ↔ c = '_' ∨ c ∈ wordMarks.toList := by
    have hlist : wordMarks.toList = ['-', '.', '*', '#'] := by decide
    rw [hlist, nameMarks]
    simp only [List.mem_cons, List.not_mem_nil, or_false]
    tauto
  rw [isWordChar, Text.isNameChar, hmarks]
  simp [or_assoc]

/-- What scanning promises of its values is that they are clean. -/
theorem Atom.valid_iff_clean {a : Atom} : a.Valid ↔ a.Clean := by
  cases a with
  | bare w => simp only [Atom.Valid, Atom.Clean, isWordChar_iff]
  | quoted s => exact Iff.rfl

/-- The values of a well-formed token are well-formed. -/
theorem Token.Valid.atoms {t : Token} (h : t.Valid) {a : Atom} (ha : a ∈ t.atoms) : a.Valid := by
  cases t with
  | atom b => exact List.mem_singleton.1 ha ▸ h
  | list members => exact h a ha
  | openParen => exact absurd ha List.not_mem_nil
  | closeParen => exact absurd ha List.not_mem_nil

/-- A well-formed value is what its own text gives. -/
theorem Atom.Valid.exists_tokenize {a : Atom} (h : a.Valid) :
    ∃ text, tokenize text = [.atom a] := by
  have hend : scan [] [] = [] := by simp [scan, wordToken]
  cases a with
  | bare w =>
    refine ⟨w, ?_⟩
    rw [tokenize, ← List.append_nil w.toList, scan_bare h ends_nil, hend]
  | quoted s =>
    refine ⟨String.ofList ('\'' :: (s.toList ++ ['\''])), ?_⟩
    rw [tokenize, String.toList_ofList, scan_quoted h, hend]

/-- **The values that texts give are the clean ones.** Every value of every text is clean, in a list
or outside, whatever is dropped or left unclosed between its characters. And no clean value is lost,
since there is a text that gives it. -/
theorem exists_mem_tokenize_iff {a : Atom} :
    (∃ text, ∃ t ∈ tokenize text, a ∈ t.atoms) ↔ a.Clean := by
  rw [← Atom.valid_iff_clean]
  constructor
  · rintro ⟨text, t, ht, ha⟩
    exact (valid_of_mem_tokenize ht).atoms ha
  · intro ha
    obtain ⟨text, htext⟩ := ha.exists_tokenize
    exact ⟨text, .atom a, htext ▸ List.mem_singleton_self _, List.mem_singleton_self a⟩

-- hyphens do not come together across what is dropped between them, in a list or outside
example : tokenize "a-;'[-b" = [.atom (.bare "a-b")] := by decide +kernel
example : tokenize "[a-;-b,'it''s']" = [.list [.bare "a-b", .quoted "its"]] := by decide +kernel

end TableApi.Filter
