import TableApi.Proofs.Filter.Literals

/-!
# Comments in compiled filters

In the dialect `mysql` three things begin a comment outside quotes: two hyphens, a slash with a
star, and a single `#`. Filters open none by the first two, but `#` is a character of bare words. So
a compiled filter opens a comment if and only if `#` stands in one of the texts that it writes bare
(`compileAs_comments`): its fields, numbers and references, and the words that are names in a join
condition or belong to a clause without an opcode (`clausesBare`). All of them come from the bare
words of the filter's text, so without a `#` there no comment is opened.
-/

namespace TableApi

namespace Sql

variable {d : Dialect} {mark : Char} {a b sep : List Char}

/-! ## Characters outside quotes -/

/-- **The character stands outside quotes** in a text. -/
def Outside (d : Dialect) (mark : Char) (s : List Char) : Prop :=
  ∃ ms, marks? d .code s = some ms ∧ .code mark ∈ ms

/-- **The text opens a comment**, by one character or by two. -/
def OpensComment (s : List Char) : Prop :=
  ∃ ms, marks? .mysql .code s = some ms ∧
    (.code '#' ∈ ms ∨ [.code '-', .code '-'] <:+: ms ∨ [.code '/', .code '*'] <:+: ms)

theorem outside_iff {s : List Char} {ms : List Mark} (h : marks? d .code s = some ms) :
    Outside d mark s ↔ .code mark ∈ ms := by
  simp [Outside, h]

/-- **A harmless text** opens a comment by that one character or not at all. -/
theorem Harmless.opensComment_iff {s : List Char} (h : Harmless .mysql s) :
    OpensComment s ↔ Outside .mysql '#' s := by
  obtain ⟨ms, hms, -, hhyphens, hslash⟩ := h.oneStatement
  simp [OpensComment, Outside, hms, hhyphens, hslash]

/-- A text without quote signs is outside quotes. -/
theorem outside_plain (h : ∀ c ∈ a, c ∉ quoteSigns) : Outside d mark a ↔ mark ∈ a := by
  rw [outside_iff (marks?_plain d h)]
  simp

theorem not_outside_quoted (h : IsQuoted d a) : ¬Outside d mark a := by
  rw [outside_iff h]
  simp

/-- Two texts with a separator between them. -/
theorem outside_join (ha : Harmless d a) (hsep : Firm sep) (hmark : mark ∉ sep)
    (hb : Harmless d b) :
    Outside d mark (a ++ (sep ++ b)) ↔ Outside d mark a ∨ Outside d mark b := by
  obtain ⟨as, has, -⟩ := ha
  obtain ⟨bs, hbs, -⟩ := hb
  have hplain : ∀ c ∈ sep, c ∉ quoteSigns := fun c hc hq =>
    hsep.2 c hc (by simp only [harmfulSigns, List.mem_cons, hq, or_true])
  have hms : marks? d .code (a ++ (sep ++ b)) = some (as ++ (sep.map .code ++ bs)) := by
    rw [marks?_append has (unquoted_plain_append hsep.1 hplain b), marks?_plain_append d hplain,
      hbs]
    rfl
  rw [outside_iff hms, outside_iff has, outside_iff hbs]
  simp [hmark]

/-- A text in parentheses, and one before them. -/
theorem outside_call (ha : Harmless d a) (hb : Harmless d b) (hmark : mark ≠ '(' ∧ mark ≠ ')') :
    Outside d mark (a ++ '(' :: (b ++ [')'])) ↔ Outside d mark a ∨ Outside d mark b := by
  have hclose : Outside d mark (b ++ ([')'] ++ [])) ↔ Outside d mark b ∨ Outside d mark [] :=
    outside_join hb (by decide) (by simpa using hmark.2) (harmless_nil d)
  have hinner : Harmless d (b ++ [')']) := hb.append (Firm.led (by decide) d)
  have hopen : Outside d mark (a ++ (['('] ++ (b ++ [')']))) ↔
      Outside d mark a ∨ Outside d mark (b ++ [')']) :=
    outside_join ha (by decide) (by simpa using hmark.1) hinner
  have hnil : ¬Outside d mark [] := by simp [outside_plain]
  rw [List.append_nil, or_iff_left hnil] at hclose
  rw [← hclose, ← hopen]
  rfl

/-- Texts with a separator between each two of them. -/
theorem outside_intercalate {sep : String} (hsep : Firm sep.toList) (hmark : mark ∉ sep.toList)
    {parts : List String} (h : ∀ p ∈ parts, Harmless d p.toList) :
    Outside d mark (sep.intercalate parts).toList ↔ ∃ p ∈ parts, Outside d mark p.toList := by
  induction parts with
  | nil => simp [outside_plain]
  | cons p parts ih =>
    obtain ⟨hp, hparts⟩ := List.forall_mem_cons.1 h
    cases parts with
    | nil => simp
    | cons q parts =>
      rw [String.intercalate_cons_cons, String.toList_append, String.toList_append,
        List.append_assoc, outside_join hp hsep hmark (harmless_intercalate hsep hparts), ih hparts]
      simp

end Sql

namespace Filter

open Sql

variable {P : String → Prop} {mode : Mode}

/-! ## What is written bare -/

/-- The text of an operand, if it is written bare. -/
def Operand.bare? (mode : Mode) : Operand → Option String
  | .number s | .column s => some s
  | .word s => if mode = .identifiers then some s else none
  | .text _ => none

/-- What of a comparison is written bare. Patterns are quoted, whatever the operand. -/
def Comparison.bare (mode : Mode) (c : Comparison) : List String :=
  c.field ::
    match c.op.form with
    | .like _ _ _ => []
    | .symbol _ | .between _ | .member _ | .null _ => c.operands.filterMap (Operand.bare? mode)

mutual

/-- **What of an expression is written bare.** Words without an opcode are, in both modes. -/
def Expr.bare (mode : Mode) : Expr → List String
  | .compare c => c.bare mode
  | .group clauses => clausesBare mode clauses
  | .raw operands => operands.filterMap (Operand.bare? .identifiers)

/-- **What of a filter is written bare.** -/
def clausesBare (mode : Mode) : List (Option Joiner × Expr) → List String
  | [] => []
  | (_, e) :: later => e.bare mode ++ clausesBare mode later

end

theorem clausesBare_eq (mode : Mode) (clauses : List Clause) :
    clausesBare mode clauses = clauses.flatMap fun c => c.2.bare mode := by
  induction clauses with
  | nil => rfl
  | cons c later ih => rw [clausesBare, ih, List.flatMap_cons]

/-- The text of a sound operand that is written bare has the property. -/
theorem Operand.Sound.of_bare {o : Operand} (h : o.Sound P) {s : String}
    (hs : o.bare? mode = some s) : P s := by
  cases o with
  | number t | column t =>
    obtain rfl := Option.some.inj hs
    exact h
  | word t =>
    rw [bare?] at hs
    split at hs
    · obtain rfl := Option.some.inj hs
      exact h
    · simp at hs
  | text t => simp [bare?] at hs

/-- **All that a sound expression writes bare has it.** -/
theorem Expr.Sound.of_bare {e : Expr} (h : e.Sound P) : ∀ s ∈ e.bare mode, P s := by
  have hoperands : ∀ {mode : Mode} {operands : List Operand}, (∀ o ∈ operands, o.Sound P) →
      ∀ s ∈ operands.filterMap (Operand.bare? mode), P s := by
    intro mode operands ho s hs
    obtain ⟨o, hmem, hbare⟩ := List.mem_filterMap.1 hs
    exact (ho o hmem).of_bare hbare
  induction h with
  | @compare c _ field operands =>
    rw [Expr.bare, Comparison.bare, List.forall_mem_cons]
    refine ⟨field, ?_⟩
    split
    · simp
    all_goals exact hoperands operands
  | group _ ih =>
    rw [Expr.bare, clausesBare_eq]
    intro s hs
    obtain ⟨c, hc, hs⟩ := List.mem_flatMap.1 hs
    exact ih c hc s hs
  | raw h =>
    rw [Expr.bare]
    exact hoperands h

/-! ## Where the character comes from -/

/-- **The character that begins a comment stands outside quotes** in a text. -/
def Hashed (s : String) : Prop :=
  Outside .mysql '#' s.toList

/-- A string of the grammar's own signs. -/
theorem not_hashed_plain {s : String} (h : (∀ c ∈ s.toList, c ∉ quoteSigns) ∧ '#' ∉ s.toList) :
    ¬Hashed s := by
  rw [Hashed, outside_plain h.1]
  exact h.2

/-- Two strings with a separator between them. -/
theorem hashed_join {a sep b : String} (ha : Fragment .mysql a.toList) (hsep : Firm sep.toList)
    (hmark : '#' ∉ sep.toList) (hb : Fragment .mysql b.toList) :
    Hashed (a ++ sep ++ b) ↔ Hashed a ∨ Hashed b := by
  rw [Hashed, String.toList_append, String.toList_append, List.append_assoc]
  exact outside_join ha.harmless hsep hmark hb.harmless

/-- A string in parentheses, and one before them. -/
theorem hashed_call {a b : String} (ha : Fragment .mysql a.toList) (hb : Fragment .mysql b.toList) :
    Hashed (a ++ "(" ++ b ++ ")") ↔ Hashed a ∨ Hashed b := by
  have htext : (a ++ "(" ++ b ++ ")").toList = a.toList ++ '(' :: (b.toList ++ [')']) := by simp
  rw [Hashed, htext]
  exact outside_call ha.harmless hb.harmless (by decide)

theorem hashed_group {s : String} (h : Fragment .mysql s.toList) :
    Hashed ("(" ++ s ++ ")") ↔ Hashed s := by
  have hnone : ¬Hashed "" := not_hashed_plain (by decide)
  have hcall := hashed_call (a := "") .nil h
  rwa [or_iff_right hnone, String.empty_append] at hcall

/-- Strings with a separator between each two of them. -/
theorem hashed_intercalate {sep : String} (hsep : Firm sep.toList) (hmark : '#' ∉ sep.toList)
    {parts : List String} (h : ∀ p ∈ parts, Fragment .mysql p.toList) :
    Hashed (sep.intercalate parts) ↔ ∃ p ∈ parts, Hashed p :=
  outside_intercalate hsep hmark fun p hp => (h p hp).harmless

/-- An operand as a value: it has the character if it is bare. -/
theorem hashed_value (o : Operand) :
    Hashed (o.value .mysql mode) ↔ ∃ s ∈ o.bare? mode, Hashed s := by
  have hliteral : ∀ s, ¬Hashed (literal .mysql s) := fun s =>
    not_outside_quoted (isQuoted_literal .mysql s)
  cases o with
  | number s | column s => simp [Operand.value, Operand.bare?]
  | word s =>
    cases mode with
    | values => simp [Operand.value, Operand.bare?, hliteral]
    | identifiers => simp [Operand.value, Operand.bare?]
  | text s => simp [Operand.value, Operand.bare?, hliteral]

/-- An operand among raw words is bare unless it was quoted. -/
theorem hashed_rawText (o : Operand) :
    Hashed (o.rawText .mysql mode) ↔ ∃ s ∈ o.bare? .identifiers, Hashed s := by
  cases o with
  | text s =>
    rw [Operand.rawText, hashed_value]
    rfl
  | _ => simp [Operand.rawText, Operand.raw, Operand.bare?]

/-- Several operands, each written so that it has the character if it is bare. -/
theorem exists_hashed_map {write : Operand → String} {bare? : Operand → Option String}
    (h : ∀ o, Hashed (write o) ↔ ∃ s ∈ bare? o, Hashed s) (operands : List Operand) :
    (∃ v ∈ operands.map write, Hashed v) ↔ ∃ s ∈ operands.filterMap bare?, Hashed s := by
  simp only [List.mem_map, List.mem_filterMap]
  constructor
  · rintro ⟨-, ⟨o, ho, rfl⟩, hhash⟩
    obtain ⟨s, hs, hhash⟩ := (h o).1 hhash
    exact ⟨s, ⟨o, ho, hs⟩, hhash⟩
  · rintro ⟨s, ⟨o, ho, hs⟩, hhash⟩
    exact ⟨_, ⟨o, ho, rfl⟩, (h o).2 ⟨s, hs, hhash⟩⟩

/-- The symbol of an order or an equality has not the character. -/
theorem hash_not_mem_symbol {op : Opcode} {s : String} (h : op.form = .symbol s) :
    '#' ∉ (" " ++ s ++ " ").toList := by
  cases op <;> simp only [Opcode.form, Form.symbol.injEq, reduceCtorEq] at h <;> subst h <;> decide

/-- A string after the words of a form, which have not either. -/
theorem hashed_words {field rest : String} (hfield : Fragment .mysql field.toList) (negated : Bool)
    (word : String) (hword : word ∈ ["BETWEEN ", "IN ", "LIKE "])
    (hrest : Fragment .mysql rest.toList) :
    Hashed (field ++ (" " ++ notText negated ++ word) ++ rest) ↔ Hashed field ∨ Hashed rest := by
  have hmark : '#' ∉ (" " ++ notText negated ++ word).toList := by
    simp only [List.mem_cons, List.not_mem_nil, or_false] at hword
    rcases hword with rfl | rfl | rfl <;> cases negated <;> decide
  exact hashed_join hfield (firm_words negated word hword).1 hmark hrest

/-- **A comparison has the character** where one of its bare texts has. -/
theorem hashed_comparison {c : Comparison} (count : c.Counted)
    (field : Fragment .mysql c.field.toList) (operands : ∀ o ∈ c.operands, o.Valid .mysql) :
    Hashed (c.render .mysql mode) ↔ ∃ s ∈ c.bare mode, Hashed s := by
  have hvalues : ∀ v ∈ c.operands.map (Operand.value .mysql mode), Fragment .mysql v.toList :=
    List.forall_mem_map.2 fun o ho => (operands o ho).value mode
  rw [Comparison.Counted] at count
  rw [Comparison.bare, List.exists_mem_cons_iff]
  cases hform : c.op.form with
  | symbol s =>
    simp only [hform] at count ⊢
    obtain ⟨o, ho⟩ := List.length_eq_one_iff.1 count
    rw [← exists_hashed_map hashed_value]
    rw [ho] at hvalues ⊢
    have hvalue := hvalues _ (List.mem_singleton_self _)
    have hjoin := hashed_join field (firm_symbol hform).1 (hash_not_mem_symbol hform) hvalue
    simpa [Comparison.render, hform, ho, String.append_assoc] using hjoin
  | between negated =>
    simp only [hform] at count ⊢
    obtain ⟨low, high, ho⟩ := List.length_eq_two.1 count
    rw [← exists_hashed_map hashed_value]
    rw [ho] at hvalues ⊢
    have hlow := hvalues _ (List.mem_cons_self ..)
    have hhigh := hvalues _ (List.mem_cons_of_mem _ (List.mem_singleton_self _))
    have hjoin := hashed_words field negated "BETWEEN " (by simp)
      (fragment_join hlow firm_and.1 firm_and.2 hhigh)
    rw [hashed_join hlow firm_and.1 (by decide) hhigh] at hjoin
    simpa [Comparison.render, hform, ho, String.append_assoc] using hjoin
  | member negated =>
    have hlist : Fragment .mysql
        (",".intercalate (c.operands.map (Operand.value .mysql mode))).toList :=
      Fragment.intercalate (by decide) (by decide) hvalues
    have hgroup : Fragment .mysql
        ("(" ++ ",".intercalate (c.operands.map (Operand.value .mysql mode)) ++ ")").toList := by
      simpa using Fragment.group hlist
    have hjoin := hashed_words field negated "IN " (by simp) hgroup
    rw [hashed_group hlist, hashed_intercalate (by decide) (by decide) hvalues,
      exists_hashed_map hashed_value] at hjoin
    have hparen : "IN (" = "IN " ++ "(" := rfl
    simpa only [Comparison.render, hform, hparen, String.append_assoc] using hjoin
  | null negated =>
    simp only [hform] at count ⊢
    have hnull : Fragment .mysql (notText negated ++ "NULL").toList := by
      cases negated <;> exact .firm (by decide) (by decide)
    have hplain : ¬Hashed (notText negated ++ "NULL") := by
      cases negated <;> exact not_hashed_plain (by decide)
    have hjoin := hashed_join field firm_is.1 (by decide) hnull
    rw [or_iff_left hplain] at hjoin
    simpa [Comparison.render, hform, count, String.append_assoc] using hjoin
  | like negated before after =>
    simp only [hform] at count ⊢
    obtain ⟨o, ho⟩ := List.length_eq_one_iff.1 count
    have hpattern := isQuoted_patternLiteral .mysql before after o.raw
    have hplain : ¬Hashed (patternLiteral .mysql before after o.raw) := not_outside_quoted hpattern
    have hjoin := hashed_words field negated "LIKE " (by simp) (.quoted hpattern)
    rw [or_iff_left hplain] at hjoin
    simpa [Comparison.render, hform, ho, String.append_assoc, Dialect.likeEscape] using hjoin

/-- The words of a clause list: keywords have not the character. -/
theorem exists_hashed_clauseWords {clauses : List Clause}
    (h : ∀ c ∈ clauses, Hashed (c.2.render .mysql mode) ↔ ∃ s ∈ c.2.bare mode, Hashed s) :
    (∃ w ∈ clauseWords .mysql mode clauses, Hashed w) ↔
      ∃ s ∈ clausesBare mode clauses, Hashed s := by
  induction clauses with
  | nil => simp [clauseWords, clausesBare]
  | cons c later ih =>
    obtain ⟨joiner, e⟩ := c
    obtain ⟨he, hlater⟩ := List.forall_mem_cons.1 h
    have hkeyword : ∀ j : Joiner, ¬Hashed j.keyword := by
      intro j
      cases j <;> exact not_hashed_plain (by decide)
    have hempty : (e.render .mysql mode).isEmpty = true → ¬Hashed (e.render .mysql mode) := by
      intro hnone
      rw [String.isEmpty_iff] at hnone
      rw [hnone]
      exact not_hashed_plain (by decide)
    have hword : (∃ w ∈ (if (e.render .mysql mode).isEmpty then [] else [e.render .mysql mode]),
        Hashed w) ↔ ∃ s ∈ e.bare mode, Hashed s := by
      split
      · next hnone => simp [← he, hempty hnone]
      · simp [he]
    rw [clauseWords, clausesBare]
    simp only [List.mem_append, or_and_right, exists_or, ← ih hlater, ← hword]
    simp [hkeyword]

/-- **An expression has the character** where one of its bare texts has. -/
theorem hashed_render {e : Expr} (h : e.Sound fun s => Fragment .mysql s.toList) :
    Hashed (e.render .mysql mode) ↔ ∃ s ∈ e.bare mode, Hashed s := by
  induction h with
  | @compare c count field operands =>
    rw [Expr.render, Expr.bare]
    exact hashed_comparison count field fun o ho => (operands o ho).valid
  | @group clauses h ih =>
    have hwords := fragment_clauseWords fun c hc => (h c hc).valid.render mode
    have hlist : Fragment .mysql (" ".intercalate (clauseWords .mysql mode clauses)).toList :=
      .intercalate (by decide) (by decide) hwords
    rw [Expr.render, Expr.bare, hashed_group hlist,
      hashed_intercalate (by decide) (by decide) hwords]
    exact exists_hashed_clauseWords ih
  | @raw operands h =>
    have hwords : ∀ w ∈ operands.map (Operand.rawText .mysql mode), Fragment .mysql w.toList :=
      List.forall_mem_map.2 fun o ho => (h o ho).valid.rawText mode
    rw [Expr.render, Expr.bare, hashed_intercalate (by decide) (by decide) hwords]
    exact exists_hashed_map hashed_rawText operands

/-- **So has a filter.** -/
theorem hashed_clauses {clauses : List Clause}
    (h : ∀ c ∈ clauses, c.2.Sound fun s => Fragment .mysql s.toList) :
    Hashed (render .mysql mode clauses) ↔ ∃ s ∈ clausesBare mode clauses, Hashed s := by
  have hwords := fragment_clauseWords fun c hc => (h c hc).valid.render mode
  rw [render, hashed_intercalate (by decide) (by decide) hwords]
  exact exists_hashed_clauseWords fun c hc => hashed_render (h c hc)

/-! ## Whole filters -/

/-- **The text is a fragment, and has the character only if one of the words has.** -/
def FromWords (words : List String) (s : String) : Prop :=
  Fragment .mysql s.toList ∧ (Hashed s → ∃ w ∈ words, '#' ∈ w.toList)

/-- The bare words of a text. -/
def bareWords (text : String) : List String :=
  (tokenize text).flatMap Token.words

theorem fromWords_bare {words : List String} {w : String} (hmem : w ∈ words)
    (hw : (Atom.bare w).Valid) : FromWords words w := by
  have hsigns : ∀ x ∈ quoteSigns, isWordChar x = false := by decide
  have hplain : ∀ c ∈ w.toList, c ∉ quoteSigns := fun c hc hquote =>
    not_mem_of_wordChars hw.2.1 (hsigns c hquote) hc
  exact ⟨fragment_of_bare hw, fun hhash => ⟨w, hmem, (outside_plain hplain).1 hhash⟩⟩

/-- A call does if its name and its arguments do. -/
theorem fromWords_call {words : List String} {name : String} {args : List String}
    (hname : FromWords words name) (hargs : ∀ a ∈ args, FromWords words a) :
    FromWords words (callText name args) := by
  have hreverse : ∀ a ∈ args.reverse, Fragment .mysql a.toList := fun a ha =>
    (hargs a (List.mem_reverse.1 ha)).1
  have hlist : Fragment .mysql (", ".intercalate args.reverse).toList :=
    .intercalate (by decide) (by decide) hreverse
  refine ⟨fragment_callText hname.1 fun a ha => (hargs a ha).1, fun hhash => ?_⟩
  rw [callText, hashed_call hname.1 hlist, hashed_intercalate (by decide) (by decide) hreverse]
    at hhash
  rcases hhash with hhash | ⟨a, ha, hhash⟩
  · exact hname.2 hhash
  · exact (hargs a (List.mem_reverse.1 ha)).2 hhash

/-- **Every bare text of a filter comes from the words of its text.** -/
theorem sound_fromWords {text : String} {clauses : List Clause}
    (h : parse (tokenize text) = .ok clauses) :
    ∀ c ∈ clauses, c.2.Sound (FromWords (bareWords text)) := by
  refine parse_sound (fun hs => ?_) ?_ fromWords_call (fun t ht w hw => ?_) h
  · have hquoted := isQuoted_quotedArg (d := .mysql) hs
    exact ⟨.quoted hquoted, fun hhash => absurd hhash (not_outside_quoted hquoted)⟩
  · exact ⟨.nil, fun hhash => absurd hhash (not_hashed_plain (by decide))⟩
  · exact fromWords_bare (List.mem_flatMap.2 ⟨t, ht, hw⟩) ((valid_of_mem_tokenize ht).words w hw)

/-- **Comments.** A compiled filter closes every quote. It opens a comment if and only if the
character that begins one stands in a text that it writes bare, and then that character stands in a
bare word of the filter's text. -/
theorem compileAs_comments {text sql : String} (h : compileAs mode .mysql text = .ok sql) :
    (∃ ms, marks? .mysql .code sql.toList = some ms) ∧
      ∃ clauses, parse (tokenize text) = .ok clauses ∧
        (OpensComment sql.toList ↔ ∃ s ∈ clausesBare mode clauses, Hashed s) ∧
        (OpensComment sql.toList → ∃ w ∈ bareWords text, '#' ∈ w.toList) := by
  have hharmless := (fragment_compileAs h).harmless
  obtain ⟨clauses, hclauses, h⟩ := bind_eq_ok.1 h
  obtain ⟨-, -, hparse⟩ := bind_eq_ok.1 hclauses
  obtain rfl := Except.ok.inj h
  have hsound := sound_fromWords hparse
  have hopens : OpensComment (render .mysql mode clauses).toList ↔
      ∃ s ∈ clausesBare mode clauses, Hashed s :=
    hharmless.opensComment_iff.trans
      (hashed_clauses fun c hc => (hsound c hc).mono fun _ hs => hs.1)
  refine ⟨?_, clauses, hparse, hopens, fun hcomment => ?_⟩
  · obtain ⟨ms, hms, -⟩ := hharmless
    exact ⟨ms, hms⟩
  · obtain ⟨s, hs, hhash⟩ := hopens.1 hcomment
    rw [clausesBare_eq] at hs
    obtain ⟨c, hc, hs⟩ := List.mem_flatMap.1 hs
    exact ((hsound c hc).of_bare s hs).2 hhash

/-- What begins a comment is harmless between quotes. -/
theorem compileAs_comments_quoted :
    compileAs .values .mysql "note,eq,'# -- /*',and,t.id,gt,1" =
        .ok "note = '# -- /*' AND t.id > 1" ∧
      ¬OpensComment "note = '# -- /*' AND t.id > 1".toList := by
  have hcompile : compileAs .values .mysql "note,eq,'# -- /*',and,t.id,gt,1" =
      .ok "note = '# -- /*' AND t.id > 1" := by decide +kernel
  have hwords : ∀ w ∈ bareWords "note,eq,'# -- /*',and,t.id,gt,1", '#' ∉ w.toList := by
    decide +kernel
  obtain ⟨-, clauses, -, -, hcomment⟩ := compileAs_comments hcompile
  refine ⟨hcompile, fun hopens => ?_⟩
  obtain ⟨w, hw, hmark⟩ := hcomment hopens
  exact hwords w hw hmark

/-- A field can begin a comment, and the value is lost in it. -/
theorem compile_opens_comment :
    compile .mysql "a#,eq,1" = .ok "a# = 1" ∧ OpensComment "a# = 1".toList :=
  ⟨by decide +kernel, _, rfl, .inl (by decide)⟩

end Filter

end TableApi
