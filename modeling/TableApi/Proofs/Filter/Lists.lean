import TableApi.Proofs.Filter.Fields
import TableApi.Proofs.Filter.Kept

/-!
# Lists of quoted values

A comparison with a list, `field,in,['first','second']`, is found by two scans. One looks for the
brackets of the list and does not know of quotes. The other splits what stands between them, and
does. They agree as long as the first bracket that the values hold, if they hold any, is not a
closing one (`parse_quotedList`):

* Without brackets, the list is what was written (`scan_list`).
* Where an opening bracket comes first, the brackets of the list are dropped, and its values are
  read one by one instead (`scan_unpaired`). That makes no difference.
* Where a closing bracket comes first, the list ends there, within a value. Nothing that follows can
  take back an operand (`parse_begins`), so the value stays cut (`parse_cut`).
-/

namespace TableApi.Filter

/-! ## Quoted values -/

/-- **Values in quotes**, with a comma between each two of them. -/
def quotedList : List String → List Char
  | [] => []
  | v :: later => (Atom.quoted v).written ++ later.flatMap fun u => ',' :: (Atom.quoted u).written

/-- Values in quotes, with a comma after each of them. -/
def quotedBefore (values : List String) : List Char :=
  values.flatMap fun v => (Atom.quoted v).written ++ [',']

theorem quotedList_append (before : List String) (v : String) (after : List String) :
    quotedList (before ++ v :: after) = quotedBefore before ++ quotedList (v :: after) := by
  have hcons : ∀ u w later, quotedList (u :: w :: later) =
      (Atom.quoted u).written ++ ',' :: quotedList (w :: later) := by simp [quotedList]
  induction before with
  | nil => rfl
  | cons u before ih =>
    obtain ⟨w, later, hlater⟩ := List.exists_cons_of_ne_nil (l := before ++ v :: after) (by simp)
    rw [List.cons_append, hlater, hcons, ← hlater, ih]
    simp [quotedBefore]

theorem quotedList_prefix_quotedBefore (values : List String) :
    quotedList values <+: quotedBefore values := by
  rcases List.eq_nil_or_concat values with rfl | ⟨before, v, rfl⟩
  · exact List.prefix_rfl
  · rw [List.concat_eq_append, quotedList_append]
    simp [quotedBefore, quotedList]

/-! ## The members of a list -/

variable {s rest : List Char} {v : String}

/-- A text in quotes up to the quote that closes it. -/
theorem members_quoted (h : '\'' ∉ s) (rest : List Char) :
    members true (s ++ '\'' :: rest) =
      (⟨s ++ (members false rest).1.text, true⟩, (members false rest).2) := by
  induction s with
  | nil => simp [members]
  | cons c s ih =>
    obtain ⟨hc, hs⟩ := not_or.1 fun hmem => h (List.mem_cons.2 hmem)
    simp [members, Ne.symm hc, ih hs]

/-- A text in quotes that are not closed. -/
theorem members_open (h : '\'' ∉ s) : members true s = (⟨s, false⟩, []) := by
  induction s with
  | nil => rfl
  | cons c s ih =>
    obtain ⟨hc, hs⟩ := not_or.1 fun hmem => h (List.mem_cons.2 hmem)
    simp [members, Ne.symm hc, ih hs]

/-- The last value of a list, with or without the quote that closes it. -/
theorem listAtoms_open (h : '\'' ∉ s) : listAtoms ('\'' :: s) = [.quoted (String.ofList s)] := by
  simp [listAtoms, members, members_open h, Member.atom?]

theorem listAtoms_quoted (h : '\'' ∉ v.toList) :
    listAtoms (Atom.quoted v).written = [.quoted v] := by
  simp [listAtoms, members, Atom.written, members_quoted h, Member.atom?]

theorem listAtoms_quotedBefore {values : List String} (h : ∀ v ∈ values, '\'' ∉ v.toList)
    (rest : List Char) :
    listAtoms (quotedBefore values ++ rest) = values.map .quoted ++ listAtoms rest := by
  induction values with
  | nil => rfl
  | cons v values ih =>
    obtain ⟨hv, hvalues⟩ := List.forall_mem_cons.1 h
    rw [List.map_cons, List.cons_append, ← ih hvalues]
    simp [quotedBefore, Atom.written, listAtoms, members, members_quoted hv, Member.atom?]

/-- **The members of a list of quoted values.** -/
theorem listAtoms_quotedList {values : List String} (hne : values ≠ [])
    (h : ∀ v ∈ values, '\'' ∉ v.toList) : listAtoms (quotedList values) = values.map .quoted := by
  obtain ⟨before, v, rfl⟩ := List.eq_nil_or_concat values |>.resolve_left hne
  have hlast : quotedList [v] = (Atom.quoted v).written := by simp [quotedList]
  rw [List.concat_eq_append, List.forall_mem_append] at h
  rw [List.concat_eq_append, quotedList_append, hlast, listAtoms_quotedBefore h.1,
    listAtoms_quoted (h.2 v (List.mem_singleton_self v)), List.map_append, List.map_singleton]

/-! ## The brackets of a list -/

/-- A square bracket. -/
def isBracket (c : Char) : Bool :=
  c == '[' || c == ']'

theorem isBracket_of_not_mem {s : List Char} (hopen : '[' ∉ s) (hclose : ']' ∉ s) :
    ∀ c ∈ s, isBracket c = false := by
  intro c hc
  have hne : c ≠ '[' ∧ c ≠ ']' := ⟨fun h => hopen (h ▸ hc), fun h => hclose (h ▸ hc)⟩
  simp [isBracket, hne]

/-- **The first square bracket** in any of the values. -/
def firstBracket? (values : List String) : Option Char :=
  values.findSome? fun v => v.toList.find? isBracket

/-- A list without brackets of its own is found. -/
theorem scan_list (h : ∀ c ∈ s, isBracket c = false) (rest : List Char) :
    scan [] ('[' :: (s ++ ']' :: rest)) = .list (listAtoms s) :: scan [] rest := by
  have hopen : '[' ∉ s := fun hmem => absurd (h _ hmem) (by decide)
  have hclose : ']' ∉ s := fun hmem => absurd (h _ hmem) (by decide)
  have hcut : cutList (s ++ ']' :: rest) = some (s, rest) := by
    rw [cutList, Text.cutAt_append hclose, Option.filter_some]
    simp [hopen]
  rw [scan_bracket hcut]
  rfl

/-- Where another bracket opens before one closes, the first one is dropped. -/
theorem scan_unpaired (h : ∀ c ∈ s, isBracket c = false) (rest : List Char) :
    scan [] ('[' :: (s ++ '[' :: rest)) = scan [] (s ++ '[' :: rest) := by
  have hclose : ']' ∉ s := fun hmem => absurd (h _ hmem) (by decide)
  have hcut : cutList (s ++ '[' :: rest) = none := by
    rw [cutList, Option.filter_eq_none_iff]
    rintro ⟨inner, after⟩ hfound
    obtain ⟨hsplit, -⟩ := Text.cutAt_eq_some hfound
    have hinner : '[' ∈ inner := by
      rcases List.append_eq_append_iff.1 hsplit with
        ⟨between, rfl, hbetween⟩ | ⟨between, rfl, hbetween⟩
      · cases between with
        | nil => simp at hbetween
        | cons c between =>
          obtain ⟨rfl, -⟩ := List.cons.inj hbetween
          simp
      · cases between with
        | nil => simp at hbetween
        | cons c between =>
          obtain ⟨rfl, -⟩ := List.cons.inj hbetween
          simp at hclose
    simpa using hinner
  exact scan_bracket_of_none hcut []

theorem isBracket_quotedBefore {values : List String}
    (h : ∀ v ∈ values, v.toList.find? isBracket = none) :
    ∀ c ∈ quotedBefore values, isBracket c = false := by
  intro c hc
  obtain ⟨v, hv, hc⟩ := List.mem_flatMap.1 hc
  have hplain := List.find?_eq_none.1 (h v hv)
  simp only [Atom.written, List.cons_append, List.append_assoc, List.nil_append, List.mem_cons,
    List.mem_append, List.not_mem_nil, or_false] at hc
  rcases hc with rfl | hc | rfl | rfl
  · decide
  · simpa using hplain c hc
  · decide
  · decide

/-! ## Comparisons with a list -/

/-- **The text writes** that the field is one of the values, or that it is none. -/
def WritesMember (f : Field) (op : Opcode) (values : List String) (text : List Char) : Prop :=
  ∃ word : String, Text.sameLetters op.mnemonic word = true ∧
    text = f.written ++ ',' :: (word.toList ++ ',' :: '[' :: (quotedList values ++ [']']))

variable {f : Field} {op : Opcode} {word : String} {values : List String}

/-- The field and the opcode are the first items that are read. -/
theorem reading_field_opcode (hf : f.WellFormed) (hword : Text.sameLetters op.mnemonic word = true)
    (rest : List Char) :
    reading .start (f.written ++ ',' :: (word.toList ++ ',' :: rest)) =
      reading (gathering [] [] none [f.item, .word word]) rest := by
  have hplain : ∀ a ∈ [Atom.bare word], a.Plain := by simpa using Opcode.plain_word hword
  have hscan : scan [] (word.toList ++ ',' :: rest) =
      [Atom.bare word].map .atom ++ scan [] rest := by
    rw [scan_bare (Opcode.valid_word hword) (ends_comma rest), scan_comma]
    rfl
  calc reading .start (f.written ++ ',' :: (word.toList ++ ',' :: rest))
      = reading (gathering [] [] none [f.item]) (',' :: (word.toList ++ ',' :: rest)) :=
        hf.reading [] [] none (ends_comma _)
    _ = reading (gathering [] [] none [f.item]) (word.toList ++ ',' :: rest) := reading_comma _ _
    _ = reading (gathering [] [] none [f.item, .word word]) rest :=
        reading_of_scan hscan (foldlM_atoms [] [] none hplain [f.item])

/-- The items after them are the operands. -/
theorem interpret_items (hword : Text.sameLetters op.mnemonic word = true) (f : Field)
    (items : List Item) :
    interpret (f.item :: .word word :: items) =
      (fun operands => .compare ⟨f.sql, op, operands⟩) <$>
        checkedOperands op (items.flatMap Item.operands) := by
  rw [map_eq_pure_bind]
  simp only [interpret, f.field?_item, Item.opcode?, Opcode.ofWord?_eq_some hword]

/-- A list may have any number of them but none. -/
theorem interpret_member (hop : op.arity = .variadic)
    (hword : Text.sameLetters op.mnemonic word = true) (f : Field) {items : List Item}
    (hne : items.flatMap Item.operands ≠ []) :
    interpret (f.item :: .word word :: items) =
      .ok (.compare ⟨f.sql, op, items.flatMap Item.operands⟩) := by
  have htakes : op.Takes (items.flatMap Item.operands).length := by
    cases op with
    | in_ | nin => exact List.length_pos_iff.2 hne
    | _ => simp [Opcode.arity] at hop
  rw [interpret_items hword, checkedOperands_of_takes htakes]
  rfl

@[simp] theorem reading_nil (s : ParseState) : reading s [] = .ok s := by
  simp [reading, scan, wordToken, pure, Except.pure]

theorem parse_of_reading {text : String} {s : ParseState}
    (h : reading .start text.toList = .ok s) : parse (tokenize text) = s.finish := by
  have htokens : (tokenize text).foldlM ParseState.step .start = .ok s := h
  rw [parse, htokens]
  rfl

theorem finish_gathering {items : List Item} (hne : items ≠ []) :
    (gathering [] [] none items).finish = (fun e => [(none, e)]) <$> interpret items := by
  have hempty : items.reverse.isEmpty = false := by simpa using hne
  simp only [ParseState.finish, gathering, Level.close, hempty, List.reverse_reverse]
  cases interpret items with
  | error e => rfl
  | ok e => rfl

/-- Quoted values are read back outside a list too. -/
theorem scan_quotedList (h : ∀ v ∈ values, '\'' ∉ v.toList) (rest : List Char) :
    scan [] (quotedList values ++ rest) =
      (values.map Atom.quoted).map .atom ++ scan [] rest := by
  have hlater : ∀ later : List String, (∀ v ∈ later, '\'' ∉ v.toList) →
      scan [] ((later.flatMap fun u => ',' :: (Atom.quoted u).written) ++ rest) =
        (later.map Atom.quoted).map .atom ++ scan [] rest := by
    intro later hquotes
    induction later with
    | nil => rfl
    | cons v later ih =>
      obtain ⟨hv, hrest⟩ := List.forall_mem_cons.1 hquotes
      have hscan := scan_quoted hv ((later.flatMap fun u => ',' :: (Atom.quoted u).written) ++ rest)
      rw [ih hrest] at hscan
      simpa [Atom.written] using hscan
  cases values with
  | nil => rfl
  | cons v later => simpa [quotedList] using hlater (v :: later) h

/-- **Where the first bracket is among the values**: in a value, with what stands before it. -/
theorem exists_of_firstBracket? {b : Char} (h : firstBracket? values = some b) :
    isBracket b = true ∧
      ∃ before v cut rest, before ++ [v] <+: values ∧ cut ++ [b] <+: v.toList ∧
        quotedList values ++ [']'] = (quotedBefore before ++ '\'' :: cut) ++ b :: rest ∧
        ∀ c ∈ quotedBefore before ++ '\'' :: cut, isBracket c = false := by
  obtain ⟨before, v, after, rfl, hv, hbefore⟩ := List.findSome?_eq_some_iff.1 h
  obtain ⟨hb, cut, kept, hsplit, hcut⟩ := List.find?_eq_some_iff_append.1 hv
  refine ⟨hb, before, v, cut,
    kept ++ '\'' :: ((after.flatMap fun u => ',' :: (Atom.quoted u).written) ++ [']']),
    by simp, by simp [hsplit], ?_, ?_⟩
  · rw [quotedList_append, quotedList, Atom.written, hsplit]
    simp
  · rw [List.forall_mem_append, List.forall_mem_cons]
    exact ⟨isBracket_quotedBefore hbefore, by decide, fun c hc => by simpa using hcut c hc⟩

/-- Values without brackets are read as a list. -/
theorem reading_list (hne : values ≠ []) (hquotes : ∀ v ∈ values, '\'' ∉ v.toList)
    (h : firstBracket? values = none) (items : List Item) :
    reading (gathering [] [] none items) ('[' :: (quotedList values ++ [']'])) =
      .ok (gathering [] [] none (items ++ [.list (values.map .quoted)])) := by
  have hplain : ∀ c ∈ quotedList values, isBracket c = false := fun c hc =>
    isBracket_quotedBefore (List.findSome?_eq_none_iff.1 h) c
      ((quotedList_prefix_quotedBefore values).subset hc)
  have hscan := scan_list hplain []
  rw [listAtoms_quotedList hne hquotes] at hscan
  have hstep : (gathering [] [] none items).step (.list (values.map .quoted)) =
      .ok (gathering [] [] none (items ++ [.list (values.map .quoted)])) := by
    simp [ParseState.step, gathering, ParseState.clause, Token.joiner?, Token.item?, Level.addItem,
      pure, Except.pure]
  rw [reading_of_step hscan hstep, reading_nil]

/-- Values that hold an opening bracket first are read one by one. -/
theorem reading_opened (hquotes : ∀ v ∈ values, '\'' ∉ v.toList)
    (h : firstBracket? values = some '[') (items : List Item) :
    reading (gathering [] [] none items) ('[' :: (quotedList values ++ [']'])) =
      .ok (gathering [] [] none (items ++ values.map .quoted)) := by
  obtain ⟨-, before, v, cut, rest, -, -, hsplit, hplain⟩ := exists_of_firstBracket? h
  have hscan : scan [] ('[' :: (quotedList values ++ [']'])) =
      (values.map Atom.quoted).map .atom ++ scan [] [] := by
    rw [hsplit, scan_unpaired hplain, ← hsplit, scan_quotedList hquotes]
    simp [scan, isWordChar, Text.isNameChar, wordMarks]
  have hquoted : ∀ a ∈ values.map Atom.quoted, a.Plain := List.forall_mem_map.2 fun _ _ => rfl
  have hitems : (values.map Atom.quoted).map Atom.item = values.map .quoted := by
    rw [List.map_map]
    rfl
  rw [reading_of_scan hscan (foldlM_atoms [] [] none hquoted items), reading_nil, hitems]

/-- **Values without brackets, or with an opening one first, are read back.** -/
theorem parse_kept (hf : f.WellFormed) (hop : op.arity = .variadic) (hne : values ≠ [])
    (hquotes : ∀ v ∈ values, '\'' ∉ v.toList) {text : String}
    (htext : WritesMember f op values text.toList) (hkept : firstBracket? values ≠ some ']') :
    parse (tokenize text) = .ok [(none, .compare ⟨f.sql, op, values.map .text⟩)] := by
  obtain ⟨word, hword, htext⟩ := htext
  obtain ⟨items, hitems, hread⟩ : ∃ items : List Item,
      items.flatMap Item.operands = values.map .text ∧
      reading (gathering [] [] none [f.item, .word word]) ('[' :: (quotedList values ++ [']'])) =
        .ok (gathering [] [] none (f.item :: .word word :: items)) := by
    cases hfirst : firstBracket? values with
    | none =>
      exact ⟨[.list (values.map .quoted)], by simp [Item.operands, Atom.operand],
        reading_list hne hquotes hfirst _⟩
    | some b =>
      obtain rfl : b = '[' := by
        have hbracket := (exists_of_firstBracket? hfirst).1
        rw [hfirst, Ne, Option.some_inj] at hkept
        simpa [isBracket, hkept] using hbracket
      refine ⟨values.map .quoted, ?_, reading_opened hquotes hfirst _⟩
      rw [List.flatMap_map]
      exact List.flatMap_pure_eq_map ..
  have hnonempty : items.flatMap Item.operands ≠ [] := by simpa [hitems] using hne
  rw [parse_of_reading (htext ▸ (reading_field_opcode hf hword _).trans hread),
    finish_gathering (by simp), interpret_member hop hword f hnonempty, hitems]
  rfl

/-- **Values with a closing bracket first are cut.** The list ends at that bracket: whatever the
rest of the text is read as, its first clause is a comparison with the values before it, the last
one of them cut. -/
theorem parse_cut (hf : f.WellFormed) (hop : op.arity = .variadic)
    (hquotes : ∀ v ∈ values, '\'' ∉ v.toList) {text : String}
    (htext : WritesMember f op values text.toList) (hcut : firstBracket? values = some ']') :
    ∃ before v cut, before ++ [v] <+: values ∧ cut.toList ++ [']'] <+: v.toList ∧
      ∀ clauses, parse (tokenize text) = .ok clauses →
        ∃ more, clauses.head? =
          some (none, .compare ⟨f.sql, op, (before ++ [cut]).map .text ++ more⟩) := by
  obtain ⟨word, hword, htext⟩ := htext
  obtain ⟨-, before, v, cut, rest, hvalues, hv, hsplit, hplain⟩ := exists_of_firstBracket? hcut
  refine ⟨before, v, String.ofList cut, hvalues, by rwa [String.toList_ofList], ?_⟩
  have hquoted : ∀ u ∈ before, '\'' ∉ u.toList := fun u hu =>
    hquotes u (hvalues.subset (List.mem_append_left _ hu))
  have hopen : '\'' ∉ cut := fun hmem =>
    hquotes v (hvalues.subset (by simp)) (hv.subset (List.mem_append_left _ hmem))
  have hscan := scan_list hplain rest
  rw [listAtoms_quotedBefore hquoted, listAtoms_open hopen, ← hsplit] at hscan
  have hstep : (gathering [] [] none [f.item, .word word]).step
      (.list (before.map .quoted ++ [.quoted (String.ofList cut)])) =
      .ok (gathering [] [] none ([f.item, .word word] ++
        [.list (before.map .quoted ++ [.quoted (String.ofList cut)])])) := rfl
  intro clauses hparse
  obtain ⟨s, hs, hfinish⟩ := bind_eq_ok.1 hparse
  have hrest : reading .start text.toList = .ok s := hs
  rw [htext, reading_field_opcode hf hword, reading_of_step hscan hstep] at hrest
  obtain ⟨more, e, he, hhead⟩ := parse_begins hrest hfinish
  have hnonempty : (Item.list (before.map .quoted ++ [.quoted (String.ofList cut)]) :: more).flatMap
      Item.operands ≠ [] := by simp [Item.operands]
  obtain rfl := Except.ok.inj (he.symm.trans (interpret_member hop hword f hnonempty))
  refine ⟨more.flatMap Item.operands, hhead.trans ?_⟩
  simp [Item.operands, Atom.operand]

/-- **Lists of quoted values.** A comparison with a list of texts is read back as it was written if
and only if the first square bracket that the texts hold is not a closing one. -/
theorem parse_quotedList (hf : f.WellFormed) (hop : op.arity = .variadic) (hne : values ≠ [])
    (hquotes : ∀ v ∈ values, '\'' ∉ v.toList) {text : String}
    (htext : WritesMember f op values text.toList) :
    parse (tokenize text) = .ok [(none, .compare ⟨f.sql, op, values.map .text⟩)] ↔
      firstBracket? values ≠ some ']' := by
  refine ⟨fun hparse hcut => ?_, parse_kept hf hop hne hquotes htext⟩
  obtain ⟨before, v, cut, hvalues, hv, hfirst⟩ := parse_cut hf hop hquotes htext hcut
  obtain ⟨more, hclause⟩ := hfirst _ hparse
  have hoperands : (before ++ [cut]).map Operand.text <+: values.map .text := by
    simp only [List.head?_cons, Option.some.injEq, Prod.mk.injEq, true_and, Expr.compare.injEq,
      Comparison.mk.injEq] at hclause
    exact ⟨more, hclause.symm⟩
  have hprefix : before ++ [cut] <+: values :=
    (List.prefix_map_iff_of_injective fun _ _ h => Operand.text.inj h).1 hoperands
  have hsame : before ++ [cut] = before ++ [v] :=
    (List.prefix_of_prefix_length_le hprefix hvalues (by simp)).eq_of_length (by simp)
  -- so the value has not lost anything, not even the bracket
  obtain rfl : cut = v := by simpa using hsame
  obtain ⟨kept, hkept⟩ := hv
  simpa using congrArg List.length hkept

/-- The field may be a call, and the texts may hold the signs of the grammar. -/
theorem parse_quotedList_signs :
    (Field.call "lower" [.value (.bare "name")]).WellFormed ∧ Opcode.nin.arity = .variadic ∧
      ["a,b", "(c[1]"] ≠ [] ∧ (∀ v ∈ ["a,b", "(c[1]"], '\'' ∉ v.toList) ∧
      WritesMember (.call "lower" [.value (.bare "name")]) .nin ["a,b", "(c[1]"]
        "lower(name),NIN,['a,b','(c[1]']".toList ∧
      parse (tokenize "lower(name),NIN,['a,b','(c[1]']") =
        .ok [(none, .compare ⟨"lower(name)", .nin, [.text "a,b", .text "(c[1]"]⟩)] := by
  have hfield : (Field.call "lower" [.value (.bare "name")]).WellFormed :=
    ⟨by decide, List.forall_mem_singleton.2 (.value (by simp only [Atom.Valid]; decide))⟩
  have hquotes : ∀ v ∈ ["a,b", "(c[1]"], '\'' ∉ v.toList := by decide
  have hwrites : WritesMember (.call "lower" [.value (.bare "name")]) .nin ["a,b", "(c[1]"]
      "lower(name),NIN,['a,b','(c[1]']".toList := ⟨"NIN", by decide, rfl⟩
  exact ⟨hfield, rfl, by simp, hquotes, hwrites,
    (parse_quotedList hfield rfl (by simp) hquotes hwrites).2 (by decide)⟩

/-- A closing bracket ends the list. The rest of the value is a value of its own. -/
theorem parse_closing_bracket :
    WritesMember (.column "id") .in_ ["a]b"] "id,in,['a]b']".toList ∧
      parse (tokenize "id,in,['a]b']") ≠ .ok [(none, .compare ⟨"id", .in_, [.text "a]b"]⟩)] ∧
      compile .sqlite "id,in,['a]b']" = .ok "id IN ('a','b')" := by
  have hcompile : compile .sqlite "id,in,['a]b']" = .ok "id IN ('a','b')" := by decide +kernel
  refine ⟨⟨"in", by decide, rfl⟩, fun hparse => ?_, hcompile⟩
  rw [compile, compileAs, parseText, hparse] at hcompile
  exact absurd hcompile (by decide)

end TableApi.Filter
