import Mathlib.Data.List.Forall2
import Mathlib.Tactic.MkIffOfInductiveProp
import TableApi.Proofs.Text.Joined
import TableApi.Proofs.Text.Letters
import TableApi.Proofs.Text.Percent

/-!
# Parameters as they are sent

A client writes a parameter as a key and a value, each in codes, and the parameters between
ampersands. The key has the table that it is meant for before a point, its letters in any case, and
brackets behind it. What is read is what was meant (`parse_intercalate`): the table is all that
stands before the last point, since a key has none, so a table may have points in it, blanks at its
end, and every sign that the query string itself is cut at, as long as that is sent in codes.

A plus is a sign like any other, whether it is sent as it is or in codes.
-/

namespace TableApi.Query

/-- **A parameter to be sent**: the key and how its letters are written, how many pairs of brackets
stand behind it, and the table that it is meant for. -/
structure Sent where
  target : Option String := none
  key : String
  spelling : String
  brackets : Nat := 0
  value : String
deriving DecidableEq, Repr

namespace Sent

/-- The key without its brackets. -/
def stem (p : Sent) : List Char :=
  (p.target.elim [] fun table => table.toList ++ ['.']) ++ p.spelling.toList

/-- The key in full. -/
def rawKey (p : Sent) : String :=
  String.ofList (p.stem ++ (List.replicate p.brackets ['[', ']']).flatten)

/-- **The parameter that is meant.** -/
def param (p : Sent) : Param :=
  ⟨p.target, p.key, p.value, p.rawKey⟩

/-- **A key that a reading request knows**, in any case, and a table's name without a blank at its
start. -/
@[mk_iff] structure WellFormed (p : Sent) : Prop where
  target : ∀ table ∈ p.target, table ≠ "" ∧ table.toList.head?.any Text.isBlank = false
  known : p.key ∈ readKeys
  spelling : Text.sameLetters p.spelling p.key = true

instance (p : Sent) : Decidable p.WellFormed :=
  decidable_of_iff' _ (wellFormed_iff p)

/-- **How it is sent**: the key and the value in codes. The signs that the query string is cut at
are written as codes, and in keys so is the question mark, since those before a query are no part of
it. -/
def IsCode (p : Sent) (code : String) : Prop :=
  ∃ key value, code = key ++ "=" ++ value ∧
    Text.Percent.Coded ['%', '&', '=', '?'] p.rawKey.toList key.toList ∧
    Text.Percent.Coded ['%', '&'] p.value.toList value.toList

end Sent

variable {p : Sent}

/-! ## Brackets -/

/-- Brackets at the end are taken off, all of them. -/
theorem stripBrackets_append {s : List Char} (h : s.getLast? ≠ some ']') (n : Nat) :
    stripBrackets (s ++ (List.replicate n ['[', ']']).flatten) = s := by
  have hplain : ∀ t : List Char, t.head? ≠ some ']' → stripBrackets.strip t = t := by
    intro t ht
    rw [stripBrackets.strip]
    rintro rest rfl
    exact ht rfl
  have hstrip : ∀ n, stripBrackets.strip
      ((s ++ (List.replicate n ['[', ']']).flatten).reverse) = s.reverse := by
    intro n
    induction n with
    | zero => simpa using hplain s.reverse (by simpa using h)
    | succ n ih =>
      rw [List.replicate_succ', List.flatten_append, ← List.append_assoc, List.reverse_append]
      exact ih
  rw [stripBrackets, hstrip, List.reverse_reverse]

/-- **A key without its brackets**, if it starts with no blank and ends with a letter. -/
theorem stripBrackets_trim {s : List Char} (hhead : ∀ c ∈ s.head?, Text.isBlank c = false)
    (hlast : ∃ c ∈ s.getLast?, c.isAlpha = true) (n : Nat) :
    stripBrackets (Text.trim (s ++ (List.replicate n ['[', ']']).flatten)) = s := by
  obtain ⟨last, hmem, hletter⟩ := hlast
  have hne : s ≠ [] := by
    rintro rfl
    simp at hmem
  have hstart : ∀ c ∈ (s ++ (List.replicate n ['[', ']']).flatten).head?,
      Text.isBlank c = false := by
    rwa [List.head?_append_of_ne_nil s hne]
  have hend : ∀ c ∈ (s ++ (List.replicate n ['[', ']']).flatten).getLast?,
      Text.isBlank c = false := by
    cases n with
    | zero =>
      rw [List.replicate_zero, List.flatten_nil, List.append_nil, hmem]
      intro c hc
      obtain rfl := Option.some.inj hc
      exact Text.isBlank_of_isNameChar (by simp [Text.isNameChar, Char.isAlphanum, hletter])
    | succ n =>
      rw [List.replicate_succ', List.flatten_append, ← List.append_assoc]
      simp
      decide
  rw [Text.trim_eq_self hstart hend, stripBrackets_append]
  rw [hmem]
  rintro heq
  obtain rfl := Option.some.inj heq
  exact absurd hletter (by decide)

/-! ## Keys -/

/-- What is true of the keys that requests know: they are small letters, and none is short for
another. -/
theorem readKeys_spec : ∀ key ∈ readKeys,
    (∀ c ∈ key.toList, c.toNat < 128 ∧ c.toLower = c) ∧
      (∀ c ∈ key.toList.map Char.toLower, c.isAlpha = true) ∧ key ≠ "" ∧ key ≠ "w" := by
  decide +kernel

theorem Sent.WellFormed.letters (h : p.WellFormed) :
    p.spelling ≠ "" ∧ ∀ c ∈ p.spelling.toList, c.isAlpha = true := by
  obtain ⟨-, hletters, hne, -⟩ := readKeys_spec p.key h.known
  have hsame : Text.sameLetters p.key p.spelling = true :=
    Text.sameLetters_iff.2 (Text.sameLetters_iff.1 h.spelling).symm
  exact ⟨Text.ne_empty_of_sameLetters hsame hne, Text.isAlpha_of_sameLetters hsame hletters⟩

theorem Sent.WellFormed.getLast_spelling (h : p.WellFormed) :
    ∃ c ∈ p.spelling.toList.getLast?, c.isAlpha = true := by
  obtain ⟨hne, hletters⟩ := h.letters
  have hlist : p.spelling.toList ≠ [] := String.toList_eq_nil_iff.not.2 hne
  exact ⟨_, List.getLast?_eq_some_getLast hlist, hletters _ (List.getLast_mem hlist)⟩

theorem Sent.WellFormed.head_spelling (h : p.WellFormed) :
    ∀ c ∈ p.spelling.toList.head?, Text.isBlank c = false := by
  intro c hc
  have hletter := h.letters.2 c (List.mem_of_mem_head? hc)
  exact Text.isBlank_of_isNameChar (by simp [Text.isNameChar, Char.isAlphanum, hletter])

/-- **The spelling is of the key.** -/
theorem Sent.WellFormed.normalKey_spelling (h : p.WellFormed) :
    normalKey p.spelling.toList = p.key := by
  obtain ⟨hsmall, -, -, hlong⟩ := readKeys_spec p.key h.known
  have hstem : stripBrackets (Text.trim p.spelling.toList) = p.spelling.toList := by
    simpa using stripBrackets_trim h.head_spelling h.getLast_spelling 0
  have hlowered : String.ofList (Text.lower p.spelling.toList) = p.key :=
    Text.lowered_eq_of_sameLetters hsmall h.spelling
  rw [normalKey, hstem, hlowered]
  exact if_neg hlong

/-- The key in full is trimmed, and its brackets are taken off. -/
theorem Sent.WellFormed.stripBrackets_rawKey (h : p.WellFormed) :
    stripBrackets (Text.trim p.rawKey.toList) = p.stem := by
  rw [rawKey, String.toList_ofList]
  obtain ⟨c, hc, hletter⟩ := h.getLast_spelling
  refine stripBrackets_trim ?_ ⟨c, ?_, hletter⟩ p.brackets
  · rw [stem]
    cases htable : p.target with
    | none => exact h.head_spelling
    | some table =>
      obtain ⟨hne, hhead⟩ := h.target table htable
      have hlist : table.toList ≠ [] := String.toList_eq_nil_iff.not.2 hne
      rw [Option.elim_some, List.append_assoc, List.head?_append_of_ne_nil _ hlist]
      exact (Option.any_eq_false _ _).1 hhead
  · rw [stem, List.getLast?_append, hc]
    rfl

/-- **A parameter is read as it is meant.** -/
theorem Sent.WellFormed.paramOf_eq (h : p.WellFormed) :
    paramOf p.rawKey.toList p.value.toList = p.param := by
  have hpoint : '.' ∉ p.spelling.toList := by
    intro hmem
    exact absurd (h.letters.2 _ hmem) (by decide)
  have hkey := h.normalKey_spelling
  rw [paramOf, h.stripBrackets_rawKey, stem]
  cases htable : p.target with
  | none =>
    simp [Text.cutLast_eq_none.2 hpoint, hkey, param, htable]
  | some table =>
    have hcut : Text.cutLast '.' (table.toList ++ '.' :: p.spelling.toList) =
        some (table.toList, p.spelling.toList) := Text.cutLast_append hpoint _
    simp [hcut, hkey, h.known, param, htable]

/-! ## The query string -/

/-- A code is cut at its first equals sign. -/
theorem Sent.IsCode.decodePair_eq {code : String} (h : p.IsCode code) :
    decodePair code.toList = (p.rawKey.toList, p.value.toList) := by
  obtain ⟨key, value, rfl, hkey, hvalue⟩ := h
  have hequals : '=' ∉ key.toList := hkey.not_mem (by simp) (by decide) (by decide)
  have htext : (key ++ "=" ++ value).toList = key.toList ++ '=' :: value.toList := by simp
  rw [decodePair, htext, Text.cutAt_append hequals]
  simp [hkey.decode_eq, hvalue.decode_eq]

/-- No ampersand is in it, it is not empty, and it does not start with a question mark. -/
theorem Sent.IsCode.plain {code : String} (h : p.IsCode code) :
    '&' ∉ code.toList ∧ code.toList ≠ [] ∧ code.toList.head? ≠ some '?' := by
  obtain ⟨key, value, rfl, hkey, hvalue⟩ := h
  have hkeyAmp : '&' ∉ key.toList := hkey.not_mem (by simp) (by decide) (by decide)
  have hvalueAmp : '&' ∉ value.toList := hvalue.not_mem (by simp) (by decide) (by decide)
  have hmark : '?' ∉ key.toList := hkey.not_mem (by simp) (by decide) (by decide)
  refine ⟨by simp [hkeyAmp, hvalueAmp], by simp, ?_⟩
  have htext : (key ++ "=" ++ value).toList = key.toList ++ '=' :: value.toList := by simp
  rw [htext]
  cases hlist : key.toList with
  | nil => simp
  | cons c rest =>
    rw [hlist, List.mem_cons, not_or] at hmark
    simpa using Ne.symm hmark.1

/-- **Codes between ampersands are read one by one**, if they have no ampersand in them. -/
theorem parse_codes {codes : List String}
    (h : ∀ code ∈ codes, '&' ∉ code.toList ∧ code.toList ≠ [] ∧ code.toList.head? ≠ some '?') :
    parse ("&".intercalate codes) =
      (codes.map String.toList).map fun s => paramOf (decodePair s).1 (decodePair s).2 := by
  have hplain : ∀ x ∈ codes.map String.toList, '&' ∉ x ∧ x ≠ [] ∧ x.head? ≠ some '?' := by
    simpa using h
  have hamp : "&".toList = ['&'] := rfl
  rw [parse, String.toList_intercalate, hamp]
  generalize codes.map String.toList = xs at hplain
  by_cases hne : xs = []
  · subst hne
    rfl
  · -- the text starts as its first code does, so nothing is dropped before it
    have hstart : (['&'].intercalate xs).head? ≠ some '?' := by
      obtain ⟨x, rest, rfl⟩ := List.exists_cons_of_ne_nil hne
      obtain ⟨-, hx, hhead⟩ := hplain x (List.mem_cons_self ..)
      cases rest with
      | nil => simpa using hhead
      | cons y rest =>
        rwa [List.intercalate_cons_cons, List.append_assoc, List.head?_append_of_ne_nil x hx]
    have hform : (['&'].intercalate xs).dropWhile (· == '?') = ['&'].intercalate xs := by
      cases htext : ['&'].intercalate xs with
      | nil => rfl
      | cons c rest =>
        rw [htext] at hstart
        have hc : (c == '?') = false := by simpa using hstart
        rw [List.dropWhile_cons_of_neg (by simp [hc])]
    rw [hform, piecesBetween_of_not_mem hne fun x hx => (hplain x hx).1,
      List.filter_eq_self.2 fun x hx => by simpa using (hplain x hx).2.1]

/-- **Parameters are read as they are meant**, in order, however they are coded. -/
theorem parse_intercalate {sent : List Sent} {codes : List String}
    (h : ∀ p ∈ sent, p.WellFormed) (hcodes : List.Forall₂ Sent.IsCode sent codes) :
    parse ("&".intercalate codes) = sent.map Sent.param := by
  have hplain : ∀ code ∈ codes,
      '&' ∉ code.toList ∧ code.toList ≠ [] ∧ code.toList.head? ≠ some '?' := by
    intro code hcode
    obtain ⟨k, hk, rfl⟩ := List.getElem_of_mem hcode
    exact (hcodes.get (hcodes.length_eq ▸ hk) hk).plain
  rw [parse_codes hplain]
  clear hplain
  induction hcodes with
  | nil => rfl
  | cons hcode _ ih =>
    obtain ⟨hp, hrest⟩ := List.forall_mem_cons.1 h
    rw [List.map_cons, List.map_cons, List.map_cons, ih hrest, hcode.decodePair_eq, hp.paramOf_eq]

/-- A table with a point, a blank and a letter beyond ASCII, and a value with the signs that a query
string is cut at. A plus is sent as it is, and another one in codes. -/
theorem parse_signs :
    let sent : List Sent :=
      [{ target := some "ä.b ", key := "where", spelling := "Where", brackets := 2,
          value := "1+1&x=%é" },
        { key := "order", spelling := "ORDER", value := "+" }]
    let codes := ["%C3%A4.b%20.Where%5B%5D%5B%5D=1+1%26x=%25%C3%A9", "ORDER=%2B"]
    (∀ p ∈ sent, p.WellFormed) ∧ List.Forall₂ Sent.IsCode sent codes ∧
      parse ("&".intercalate codes) =
        [⟨some "ä.b ", "where", "1+1&x=%é", "ä.b .Where[][]"⟩, ⟨none, "order", "+", "ORDER"⟩] := by
  intro sent codes
  have hsent : ∀ p ∈ sent, p.WellFormed := by decide +kernel
  have hcoded : ∀ (plain : Char → Bool) {reserved : List Char} {s code : String},
      String.ofList (Text.Percent.encode plain s.toList) = code →
      (∀ c ∈ reserved, plain c = false) →
      Text.Percent.Coded reserved s.toList code.toList := by
    rintro plain reserved s _ rfl hplain
    rw [String.toList_ofList]
    exact Text.Percent.coded_encode hplain s.toList
  let name (c : Char) : Bool := c.isAlphanum || c == '.'
  let sign (c : Char) : Bool := name c || c == '+' || c == '='
  have hcodes : List.Forall₂ Sent.IsCode sent codes := by
    refine .cons ⟨"%C3%A4.b%20.Where%5B%5D%5B%5D", "1+1%26x=%25%C3%A9", by decide +kernel, ?_, ?_⟩
      (.cons ⟨"ORDER", "%2B", by decide +kernel, ?_, ?_⟩ .nil)
    · exact hcoded name (by decide +kernel) (by decide)
    · exact hcoded sign (by decide +kernel) (by decide)
    · exact hcoded name (by decide +kernel) (by decide)
    · exact hcoded name (by decide +kernel) (by decide)
  refine ⟨hsent, hcodes, ?_⟩
  rw [parse_intercalate hsent hcodes]
  decide +kernel

end TableApi.Query
