import TableApi.Proofs.Filter.Compiled
import TableApi.Proofs.Filter.Lists

/-!
# Values with and without brackets

The operands of a comparison may be written one by one, `id,bt,1,5`, or in a list, `id,bt,[1,5]`.
A list is split by a scan of its own, and its words are taken for operands by a rule of their own.
Both give the same operands (`compileAs_brackets`), as long as no value has brackets itself and no
word is a reference to a column: only values stand in a list, so a word there is never a reference.

* `listAtoms_intercalate` — the scan of a list gives its members one by one.
* `parse_listed`, `parse_separate` — both texts are read as one comparison, or fail as its check of
  the operands does.
-/

namespace TableApi.Filter

variable {d : Dialect} {mode : Mode} {f : Field} {op : Opcode} {word : String} {values : List Atom}

/-! ## Texts -/

/-- **A value that may stand in a list**: a name that is no reference to a column, or a quoted text
without square brackets. -/
def Atom.Listable : Atom → Prop
  | .bare w => IsName w ∧ isColumnRef w.toList = false
  | .quoted s => '\'' ∉ s.toList ∧ '[' ∉ s.toList ∧ ']' ∉ s.toList

instance : (a : Atom) → Decidable a.Listable
  | .bare w => inferInstanceAs (Decidable (IsName w ∧ isColumnRef w.toList = false))
  | .quoted s => inferInstanceAs (Decidable ('\'' ∉ s.toList ∧ '[' ∉ s.toList ∧ ']' ∉ s.toList))

/-- Values as they are written, with a comma between each two of them. -/
def separated (values : List Atom) : List Char :=
  [','].intercalate (values.map Atom.written)

/-- **The text writes the comparison with its values in a list.** -/
def WritesListed (f : Field) (op : Opcode) (values : List Atom) (text : List Char) : Prop :=
  ∃ word : String, Text.sameLetters op.mnemonic word = true ∧
    text = [','].intercalate [f.written, word.toList, '[' :: (separated values ++ [']'])]

/-- **The text writes it with its values one by one**, with or without a comma after the last. -/
def WritesSeparate (f : Field) (op : Opcode) (values : List Atom) (text : List Char) : Prop :=
  ∃ (word : String) (ending : List Char), Text.sameLetters op.mnemonic word = true ∧
    (ending = [] ∨ ending = [',']) ∧
    text = [','].intercalate (f.written :: word.toList :: values.map Atom.written) ++ ending

/-! ## Values -/

namespace Atom.Listable

variable {a : Atom}

/-- A value that may stand in a list is well-formed. -/
theorem valid (h : a.Listable) : a.Valid := by
  cases a with
  | bare w => exact h.1.valid
  | quoted s => exact h.1

theorem plain (h : a.Listable) : a.Plain := by
  cases a with
  | bare w => exact plain_bare h.1.not_and h.1.not_or
  | quoted s => rfl

/-- **It is the same operand** in a list and by itself. -/
theorem operands_item (h : a.Listable) : a.item.operands = [a.operand] := by
  cases a with
  | bare w => simp [Atom.item, Item.operands, Atom.operand, classify, classifyMember, h.2]
  | quoted s => rfl

theorem isBracket_written (h : a.Listable) : ∀ c ∈ a.written, isBracket c = false := by
  cases a with
  | bare w => exact isBracket_of_not_mem (h.1.not_mem (by decide)) (h.1.not_mem (by decide))
  | quoted s =>
    exact isBracket_of_not_mem (by simp [Atom.written, h.2.1]) (by simp [Atom.written, h.2.2])

end Atom.Listable

/-! ## The members of a list -/

/-- A value as a member of a list. -/
def Atom.member : Atom → Member
  | .bare w => ⟨w.toList, false⟩
  | .quoted s => ⟨s.toList, true⟩

theorem Atom.Valid.atom?_member {a : Atom} (h : a.Valid) : a.member.atom? = some a := by
  cases a with
  | quoted s => simp [Atom.member, Member.atom?]
  | bare w =>
    obtain ⟨hne, hchars, hhyphens⟩ := h
    have hfilter : w.toList.filter isWordChar = w.toList := List.filter_eq_self.2 hchars
    have hkept : Text.sanitize wordMarks w.toList = w.toList :=
      (congrArg Text.squeezeHyphens hfilter).trans (Text.squeezeHyphens_eq_self hhyphens)
    simp [Atom.member, Member.atom?, hkept, hne]

/-- Characters without quotes and commas join the member that follows them. -/
@[simp] theorem members_plain {s : List Char} (hquote : '\'' ∉ s) (hcomma : ',' ∉ s)
    (rest : List Char) :
    members false (s ++ rest) =
      (⟨s ++ (members false rest).1.text, (members false rest).1.quoted⟩,
        (members false rest).2) := by
  induction s with
  | nil => rfl
  | cons c s ih =>
    obtain ⟨hc, hs⟩ := not_or.1 fun hmem => hquote (List.mem_cons.2 hmem)
    obtain ⟨hc', hs'⟩ := not_or.1 fun hmem => hcomma (List.mem_cons.2 hmem)
    simp [members, Ne.symm hc, Ne.symm hc', ih hs hs']

/-- **The text is one member of a list**, where nothing follows that belongs to it. -/
def IsMember (text : List Char) (m : Member) : Prop :=
  ∀ rest, (members false rest).1 = ⟨[], false⟩ →
    members false (text ++ rest) = (m, (members false rest).2)

theorem Atom.Valid.isMember {a : Atom} (h : a.Valid) : IsMember a.written a.member := by
  intro rest hrest
  cases a with
  | bare w =>
    have hchars : ∀ c ∈ w.toList, isWordChar c = true := h.2.1
    rw [Atom.written, members_plain (not_mem_of_wordChars hchars (by decide))
      (not_mem_of_wordChars hchars (by decide)), hrest]
    simp [Atom.member]
  | quoted s =>
    have hquoted := members_quoted h rest
    simp [Atom.written, Atom.member, members, hquoted, hrest]

section Intercalate

variable {α : Type} {text : α → List Char} {member : α → Member} {entries : List α}

/-- **Texts with a comma between each two of them are the members**, one by one. -/
theorem members_intercalate (h : ∀ e ∈ entries, IsMember (text e) (member e))
    (hne : entries ≠ []) :
    (members false ([','].intercalate (entries.map text))).1 ::
      (members false ([','].intercalate (entries.map text))).2 = entries.map member := by
  induction entries with
  | nil => exact absurd rfl hne
  | cons e later ih =>
    obtain ⟨he, hlater⟩ := List.forall_mem_cons.1 h
    cases later with
    | nil =>
      have hlast : members false (text e ++ []) = (member e, []) := he [] rfl
      rw [List.append_nil] at hlast
      simp [hlast]
    | cons b later =>
      have hrest : members false (',' :: [','].intercalate ((b :: later).map text)) =
          (⟨[], false⟩, (b :: later).map member) := by
        rw [← ih hlater (by simp)]
        simp [members]
      have hsplit : [','].intercalate ((e :: b :: later).map text) =
          text e ++ ',' :: [','].intercalate ((b :: later).map text) := by simp
      rw [hsplit, he _ (by rw [hrest]), hrest]
      rfl

/-- **A list holds what its members are read as.** -/
theorem listAtoms_intercalate (h : ∀ e ∈ entries, IsMember (text e) (member e)) :
    listAtoms ([','].intercalate (entries.map text)) =
      (entries.map member).filterMap Member.atom? := by
  by_cases hne : entries = []
  · subst hne
    rfl
  · exact congrArg (List.filterMap Member.atom?) (members_intercalate h hne)

/-- The texts have no brackets if none of them has. -/
theorem isBracket_intercalate (h : ∀ e ∈ entries, ∀ c ∈ text e, isBracket c = false) :
    ∀ c ∈ [','].intercalate (entries.map text), isBracket c = false := by
  induction entries with
  | nil => simp
  | cons e later ih =>
    obtain ⟨he, hlater⟩ := List.forall_mem_cons.1 h
    cases later with
    | nil => simpa using he
    | cons b later =>
      have hsplit : [','].intercalate ((e :: b :: later).map text) =
          text e ++ ',' :: [','].intercalate ((b :: later).map text) := by simp
      rw [hsplit, List.forall_mem_append, List.forall_mem_cons]
      exact ⟨he, by decide, ih hlater⟩

end Intercalate

/-- A list holds the values that were written. -/
theorem listAtoms_separated (h : ∀ a ∈ values, a.Valid) :
    listAtoms (separated values) = values := by
  have hread : values.filterMap (Member.atom? ∘ Atom.member) = values.filterMap some :=
    List.filterMap_congr fun a ha => (h a ha).atom?_member
  rw [separated, listAtoms_intercalate fun a ha => (h a ha).isMember, List.filterMap_map, hread,
    List.filterMap_some]

/-! ## Comparisons -/

/-- The comparison of the field with the operands, if their number suits the opcode. -/
def comparisonWith (f : Field) (op : Opcode) (operands : List Operand) :
    Except FilterError (List Clause) :=
  (fun checked => [(none, .compare ⟨f.sql, op, checked⟩)]) <$> checkedOperands op operands

/-- The texts after the first one stand after a comma each. -/
theorem intercalate_comma (first : List Char) (later : List (List Char)) :
    [','].intercalate (first :: later) = first ++ later.flatMap fun s => ',' :: s := by
  induction later generalizing first with
  | nil => simp
  | cons next later ih =>
    rw [List.intercalate_cons_cons, ih]
    simp

/-- A text that ends within its first comparison. -/
theorem parse_of_items {text : String} (hword : Text.sameLetters op.mnemonic word = true)
    {items : List Item} (h : reading .start text.toList =
      .ok (gathering [] [] none (f.item :: .word word :: items))) :
    parse (tokenize text) = comparisonWith f op (items.flatMap Item.operands) := by
  rw [parse_of_reading h, finish_gathering (by simp), interpret_items hword, comparisonWith,
    Functor.map_map]

/-- **Values in a list are the operands.** -/
theorem parse_listed (hf : f.WellFormed) (h : ∀ a ∈ values, a.Listable) {text : String}
    (htext : WritesListed f op values text.toList) :
    parse (tokenize text) = comparisonWith f op (values.map Atom.operand) := by
  obtain ⟨word, hword, htext⟩ := htext
  have hscan : scan [] ('[' :: (separated values ++ ']' :: [])) =
      .list (listAtoms (separated values)) :: scan [] [] :=
    scan_list (isBracket_intercalate fun a ha => (h a ha).isBracket_written) []
  rw [listAtoms_separated fun a ha => (h a ha).valid] at hscan
  have hstep : (gathering [] [] none [f.item, .word word]).step (.list values) =
      .ok (gathering [] [] none [f.item, .word word, .list values]) := rfl
  have hread : reading .start text.toList =
      .ok (gathering [] [] none [f.item, .word word, .list values]) := by
    calc reading .start text.toList
        = reading .start (f.written ++ ',' :: (word.toList ++ ',' ::
            ('[' :: (separated values ++ [']'])))) := by rw [htext]; simp
      _ = reading (gathering [] [] none [f.item, .word word])
            ('[' :: (separated values ++ [']'])) := reading_field_opcode hf hword _
      _ = .ok (gathering [] [] none [f.item, .word word, .list values]) := by
            rw [reading_of_step hscan hstep, reading_nil]
  rw [parse_of_items hword hread]
  simp [Item.operands]

/-- **Values one by one are the operands.** -/
theorem parse_separate (hf : f.WellFormed) (h : ∀ a ∈ values, a.Listable) {text : String}
    (htext : WritesSeparate f op values text.toList) :
    parse (tokenize text) = comparisonWith f op (values.map Atom.operand) := by
  obtain ⟨word, ending, hword, hending, htext⟩ := htext
  have hvalid : ∀ a ∈ Atom.bare word :: values, a.Valid :=
    List.forall_mem_cons.2 ⟨Opcode.valid_word hword, fun a ha => (h a ha).valid⟩
  have hplain : ∀ a ∈ Atom.bare word :: values, a.Plain :=
    List.forall_mem_cons.2 ⟨Opcode.plain_word hword, fun a ha => (h a ha).plain⟩
  have hends : Ends ending := by
    rcases hending with rfl | rfl
    · exact ends_nil
    · exact ends_comma []
  have hended : ∀ s, reading s ending = .ok s := by
    rcases hending with rfl | rfl
    · exact reading_nil
    · exact fun s => (reading_comma s []).trans (reading_nil s)
  have hread : reading .start text.toList =
      .ok (gathering [] [] none (f.item :: .word word :: values.map Atom.item)) := by
    calc reading .start text.toList
        = reading .start (f.written ++
            (((Atom.bare word :: values).flatMap fun a => ',' :: a.written) ++ ending)) := by
          rw [htext, intercalate_comma, List.append_assoc, List.flatMap_cons, List.flatMap_cons,
            List.flatMap_map]
          rfl
      _ = reading (gathering [] [] none [f.item])
            (((Atom.bare word :: values).flatMap fun a => ',' :: a.written) ++ ending) :=
          hf.reading [] [] none (ends_comma _)
      _ = reading (gathering [] [] none (f.item :: .word word :: values.map Atom.item)) ending :=
          reading_of_scan (scan_values hvalid hends) (foldlM_atoms [] [] none hplain [f.item])
      _ = .ok (gathering [] [] none (f.item :: .word word :: values.map Atom.item)) := hended _
  have hoperands : (values.map Atom.item).flatMap Item.operands = values.map Atom.operand := by
    rw [List.flatMap_map, List.flatMap_congr fun a ha => (h a ha).operands_item]
    exact List.flatMap_pure_eq_map ..
  rw [parse_of_items hword hread, hoperands]

/-- **Brackets make no difference.** -/
theorem compileAs_brackets (mode : Mode) (d : Dialect) (hf : f.WellFormed)
    (hvalues : ∀ a ∈ values, a.Listable) {listed text : String}
    (hlisted : WritesListed f op values listed.toList)
    (htext : WritesSeparate f op values text.toList) :
    compileAs mode d listed = compileAs mode d text ∧
      compileAs mode d text = (do
        ensureSupported d
        let operands ← checkedOperands op (values.map Atom.operand)
        pure (Comparison.render d mode ⟨f.sql, op, operands⟩)) := by
  have hcompile : ∀ {t}, parse (tokenize t) = comparisonWith f op (values.map Atom.operand) →
      compileAs mode d t = (do
        ensureSupported d
        let operands ← checkedOperands op (values.map Atom.operand)
        pure (Comparison.render d mode ⟨f.sql, op, operands⟩)) := by
    intro t hparse
    simp [compileAs, parseText, hparse, comparisonWith]
  have hseparate := hcompile (parse_separate hf hvalues htext)
  exact ⟨(hcompile (parse_listed hf hvalues hlisted)).trans hseparate.symm, hseparate⟩

/-- Numbers, the word for no value, the words of opcodes and texts with the signs of the grammar are
all values. -/
theorem compileAs_brackets_kinds :
    (Field.column "name").WellFormed ∧
      (∀ a ∈ [.bare "-1.5", .bare "null", .bare "eq", .quoted "a,(b"], Atom.Listable a) ∧
      WritesListed (.column "name") .nin
        [.bare "-1.5", .bare "null", .bare "eq", .quoted "a,(b"]
        "name,nin,[-1.5,null,eq,'a,(b']".toList ∧
      WritesSeparate (.column "name") .nin
        [.bare "-1.5", .bare "null", .bare "eq", .quoted "a,(b"]
        "name,NIN,-1.5,null,eq,'a,(b'".toList ∧
      compileAs .values .mysql "name,nin,[-1.5,null,eq,'a,(b']" =
        compileAs .values .mysql "name,NIN,-1.5,null,eq,'a,(b'" ∧
      compileAs .values .mysql "name,NIN,-1.5,null,eq,'a,(b'" =
        .ok "name NOT IN (-1.5,'null','eq','a,(b')" := by
  have hfield : (Field.column "name").WellFormed := by simp only [Field.WellFormed]; decide
  have hvalues : ∀ a ∈ [.bare "-1.5", .bare "null", .bare "eq", .quoted "a,(b"],
      Atom.Listable a := by decide +kernel
  have hlisted : WritesListed (.column "name") .nin
      [.bare "-1.5", .bare "null", .bare "eq", .quoted "a,(b"]
      "name,nin,[-1.5,null,eq,'a,(b']".toList := ⟨"nin", by decide, by decide +kernel⟩
  have htext : WritesSeparate (.column "name") .nin
      [.bare "-1.5", .bare "null", .bare "eq", .quoted "a,(b"]
      "name,NIN,-1.5,null,eq,'a,(b'".toList :=
    ⟨"NIN", [], by decide, .inl rfl, by decide +kernel⟩
  obtain ⟨hsame, hsql⟩ := compileAs_brackets .values .mysql hfield hvalues hlisted htext
  exact ⟨hfield, hvalues, hlisted, htext, hsame, hsql.trans (by decide +kernel)⟩

/-- Where a value is needed, an empty list gives none. -/
example : compile .sqlite "id,in,[]" = .error (.arity "in" 1 0) := by decide +kernel

end TableApi.Filter
