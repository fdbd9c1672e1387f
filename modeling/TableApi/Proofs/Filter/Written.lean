import TableApi.Proofs.Filter.Syntax
import TableApi.Proofs.Filter.Words

/-!
# The tokens of a written comparison

Scanning gives back the words and the quoted texts that were written. Each of them comes before a
separator or the end (`Ends`), and what a scan makes of it does not depend on what comes later. So
a written comparison gives its values as tokens (`Comparison.WellFormed.scan_writes`), whatever its
quoted texts hold.
-/

namespace TableApi.Filter

/-! ## Words that are kept as they are -/

theorem IsName.valid {w : String} (h : IsName w) : (Atom.bare w).Valid := by
  have hmarks : ∀ c ∈ nameMarks, isWordChar c = true := by decide
  refine ⟨h.not_empty, fun c hc => ?_, h.no_comment⟩
  rcases h.chars c hc with halnum | hmark
  · simp [isWordChar, Text.isNameChar, halnum]
  · exact hmarks c hmark

/-- A name has no sign that is not a word character. -/
theorem IsName.not_mem {w : String} (h : IsName w) {c : Char} (hc : isWordChar c = false) :
    c ∉ w.toList :=
  not_mem_of_wordChars h.valid.2.1 hc

/-- A word that agrees with one made of letters is well-formed. -/
theorem valid_of_sameLetters {name word : String} (h : Text.sameLetters name word = true)
    (hname : name ≠ "" ∧ ∀ c ∈ name.toList.map Char.toLower, c.isAlpha = true) :
    (Atom.bare word).Valid := by
  have hletters := Text.isAlpha_of_sameLetters h hname.2
  refine ⟨Text.ne_empty_of_sameLetters h hname.1, fun c hc => ?_, fun hin => ?_⟩
  · simp [isWordChar, Text.isNameChar, Char.isAlphanum, hletters c hc]
  · have hhyphen := hletters '-' (hin.subset (List.mem_cons_self ..))
    exact absurd hhyphen (by decide)

theorem Opcode.valid_word {op : Opcode} {word : String}
    (h : Text.sameLetters op.mnemonic word = true) : (Atom.bare word).Valid :=
  valid_of_sameLetters h (by cases op <;> decide)

theorem Joiner.valid_word {j : Joiner} {word : String}
    (h : Text.sameLetters j.keyword word = true) : (Atom.bare word).Valid :=
  valid_of_sameLetters h (by cases j <;> decide)

/-! ## Scanning -/

/-- **What may follow a word**: nothing, a comma or a closing parenthesis. -/
def Ends (rest : List Char) : Prop :=
  ∀ c ∈ rest.head?, c = ',' ∨ c = ')'

@[simp] theorem ends_nil : Ends [] := by simp [Ends]

@[simp] theorem ends_comma (rest : List Char) : Ends (',' :: rest) := by simp [Ends]

@[simp] theorem ends_closeParen (rest : List Char) : Ends (')' :: rest) := by simp [Ends]

@[simp] theorem scan_comma (rest : List Char) : scan [] (',' :: rest) = scan [] rest := by
  simp [scan, wordToken]

/-- A quote ends the word before it, if it is closed. -/
theorem scan_quote {s text after : List Char} (h : Text.cutAt '\'' s = some (text, after))
    (word : List Char) : scan word ('\'' :: s) =
      wordToken word ++ .atom (.quoted (String.ofList text)) :: scan [] after := by
  rw [scan, if_pos rfl]
  split
  · next found =>
    rw [h, Option.some.injEq, Prod.mk.injEq] at found
    obtain ⟨rfl, rfl⟩ := found
    rfl
  · next hnone => simp [h] at hnone

/-- A quote that is not closed is dropped. -/
theorem scan_quote_of_none {s : List Char} (h : Text.cutAt '\'' s = none) (word : List Char) :
    scan word ('\'' :: s) = scan word s := by
  rw [scan, if_pos rfl]
  split
  · next hfound => simp [h] at hfound
  · rfl

/-- A bracket ends the word before it, if it opens a list. -/
theorem scan_bracket {s inner after : List Char} (h : cutList s = some (inner, after))
    (word : List Char) : scan word ('[' :: s) =
      wordToken word ++ .list (listAtoms inner) :: scan [] after := by
  rw [scan, if_neg (by decide), if_pos rfl]
  split
  · next found =>
    rw [h, Option.some.injEq, Prod.mk.injEq] at found
    obtain ⟨rfl, rfl⟩ := found
    rfl
  · next hnone => simp [h] at hnone

/-- A bracket that opens none is dropped. -/
theorem scan_bracket_of_none {s : List Char} (h : cutList s = none) (word : List Char) :
    scan word ('[' :: s) = scan word s := by
  rw [scan, if_neg (by decide), if_pos rfl]
  split
  · next hfound => simp [h] at hfound
  · rfl

@[simp] theorem scan_openParen (rest : List Char) :
    scan [] ('(' :: rest) = .openParen :: scan [] rest := by
  simp [scan, wordToken]

@[simp] theorem scan_closeParen (rest : List Char) :
    scan [] (')' :: rest) = .closeParen :: scan [] rest := by
  simp [scan, wordToken]

/-- A word is complete where something that ends it follows. -/
theorem scan_of_ends (word : List Char) {rest : List Char} (h : Ends rest) :
    scan word rest = wordToken word ++ scan [] rest := by
  cases rest with
  | nil => simp [scan, wordToken]
  | cons c rest =>
    rcases h c rfl with rfl | rfl
    · simp [scan, wordToken]
    · simp [scan, wordToken]

/-- Word characters join the word that was begun. -/
theorem scan_wordChars {s : List Char} (h : ∀ c ∈ s, isWordChar c = true) (word rest : List Char) :
    scan word (s ++ rest) = scan (s.reverse ++ word) rest := by
  have hother : ∀ c ∈ ['\'', '[', '(', ')', ','], isWordChar c = false := by decide
  induction s generalizing word with
  | nil => rfl
  | cons c s ih =>
    obtain ⟨hc, hs⟩ := List.forall_mem_cons.1 h
    have hne : ∀ x ∈ ['\'', '[', '(', ')', ','], c ≠ x := by
      rintro x hx rfl
      exact not_mem_of_wordChars h (hother c hx) (List.mem_cons_self ..)
    simp only [List.forall_mem_cons] at hne
    obtain ⟨hquote, hbracket, hopen, hclose, hcomma, -⟩ := hne
    rw [List.cons_append, scan, if_neg hquote, if_neg hbracket, if_neg hopen, if_neg hclose,
      if_neg hcomma, if_pos hc, ih hs]
    simp

/-- **A word is read back.** -/
theorem scan_bare {w : String} (h : (Atom.bare w).Valid) {rest : List Char} (hrest : Ends rest) :
    scan [] (w.toList ++ rest) = .atom (.bare w) :: scan [] rest := by
  obtain ⟨hne, hchars, hhyphens⟩ := h
  have hempty : w.toList.reverse.isEmpty = false := by simpa using hne
  rw [scan_wordChars hchars, scan_of_ends _ hrest, List.append_nil, wordToken, hempty]
  simp [Text.squeezeHyphens_eq_self hhyphens]

/-- **A quoted text is read back**, whatever is in it and whatever follows. -/
theorem scan_quoted {s : String} (h : '\'' ∉ s.toList) (rest : List Char) :
    scan [] ('\'' :: (s.toList ++ '\'' :: rest)) = .atom (.quoted s) :: scan [] rest := by
  rw [scan_quote (Text.cutAt_append h rest), String.ofList_toList]
  rfl

/-! ## Comparisons -/

/-- An operand as a value of the text. -/
def Operand.atom : Operand → Atom
  | .text s => .quoted s
  | o => .bare o.raw

theorem Operand.WellFormed.scan_written {o : Operand} (h : o.WellFormed) {rest : List Char}
    (hrest : Ends rest) : scan [] (o.written ++ rest) = .atom o.atom :: scan [] rest := by
  cases o with
  | text s => simpa [Operand.written, Operand.atom] using scan_quoted h rest
  | number s => exact scan_bare h.1.valid hrest
  | column s => exact scan_bare h.1.valid hrest
  | word s => exact scan_bare h.1.valid hrest

/-- Written operands, each after a comma, end what stands before them. -/
theorem ends_operands (operands : List Operand) {rest : List Char} (hrest : Ends rest) :
    Ends ((operands.flatMap fun o => ',' :: o.written) ++ rest) := by
  cases operands with
  | nil => exact hrest
  | cons o later => exact ends_comma _

theorem scan_operands {operands : List Operand} (h : ∀ o ∈ operands, o.WellFormed)
    {rest : List Char} (hrest : Ends rest) :
    scan [] ((operands.flatMap fun o => ',' :: o.written) ++ rest) =
      operands.map (fun o => .atom o.atom) ++ scan [] rest := by
  induction operands with
  | nil => rfl
  | cons o later ih =>
    obtain ⟨ho, hlater⟩ := List.forall_mem_cons.1 h
    rw [List.flatMap_cons, List.cons_append, List.cons_append, List.append_assoc, scan_comma,
      ho.scan_written (ends_operands later hrest), ih hlater]
    rfl

/-- **A written comparison gives its values as tokens.** -/
theorem Comparison.WellFormed.scan_writes {c : Comparison} (h : c.WellFormed) {text : List Char}
    (htext : c.Writes text) {rest : List Char} (hrest : Ends rest) :
    ∃ word : String, Text.sameLetters c.op.mnemonic word = true ∧
      scan [] (text ++ rest) =
        (.bare c.field :: .bare word :: c.operands.map Operand.atom).map .atom ++ scan [] rest := by
  obtain ⟨word, hword, rfl⟩ := htext
  have hends := ends_operands c.operands hrest
  refine ⟨word, hword, ?_⟩
  rw [List.append_assoc, List.cons_append, List.append_assoc,
    scan_bare h.field.valid (ends_comma _), scan_comma, scan_bare (Opcode.valid_word hword) hends,
    scan_operands h.operands hrest]
  simp

end TableApi.Filter
