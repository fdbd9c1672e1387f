import TableApi.Proofs.Filter.Reading

/-!
# Well-formed filters in SQL

What the SQL of a well-formed filter is, said of the tree alone: a table with one row for each
opcode (`Comparison.sql`), and clauses one after the other with the keywords that join them
(`clausesSql`). It says nothing of quotes to drop or of expressions without text, because a
well-formed filter has none, and `render` agrees with it (`WellFormed.render_eq`). With the way from
the text to the tree, this is what a filter compiles to (`compile_writes`).
-/

namespace TableApi.Filter

/-! ## The reference -/

/-- A value: numbers and columns bare, words and texts between quotes. A text loses its
backslashes. -/
def Operand.sql : Operand → String
  | .number s | .column s => s
  | .word s => "'" ++ s ++ "'"
  | .text s => "'" ++ String.ofList (s.toList.filter (· != '\\')) ++ "'"

/-- A character inside a pattern: wildcards are escaped, and backslashes are left out. -/
def patternChar (c : Char) : List Char :=
  if c = '\\' then [] else if c = '%' ∨ c = '_' then ['\\', c] else [c]

/-- A value as a pattern, with the wildcards that stand before and after it. -/
def Operand.pattern (d : Dialect) (before after : String) (o : Operand) : String :=
  "'" ++ before ++ String.ofList (o.raw.toList.flatMap patternChar) ++ after ++ "'" ++ d.likeEscape

/-- **A comparison**, opcode by opcode. -/
def Comparison.sql (d : Dialect) (c : Comparison) : String :=
  c.field ++
    match c.op, c.operands with
    | .eq, [v] => " = " ++ v.sql
    | .neq, [v] => " <> " ++ v.sql
    | .lt, [v] => " < " ++ v.sql
    | .le, [v] => " <= " ++ v.sql
    | .ge, [v] => " >= " ++ v.sql
    | .gt, [v] => " > " ++ v.sql
    | .nlt, [v] => " >= " ++ v.sql
    | .nle, [v] => " > " ++ v.sql
    | .nge, [v] => " < " ++ v.sql
    | .ngt, [v] => " <= " ++ v.sql
    | .bt, [low, high] => " BETWEEN " ++ low.sql ++ " AND " ++ high.sql
    | .nbt, [low, high] => " NOT BETWEEN " ++ low.sql ++ " AND " ++ high.sql
    | .in_, values => " IN (" ++ ",".intercalate (values.map Operand.sql) ++ ")"
    | .nin, values => " NOT IN (" ++ ",".intercalate (values.map Operand.sql) ++ ")"
    | .is_, _ => " IS NULL"
    | .nis, _ => " IS NOT NULL"
    | .cs, [v] => " LIKE " ++ v.pattern d "%" "%"
    | .ncs, [v] => " NOT LIKE " ++ v.pattern d "%" "%"
    | .sw, [v] => " LIKE " ++ v.pattern d "" "%"
    | .nsw, [v] => " NOT LIKE " ++ v.pattern d "" "%"
    | .ew, [v] => " LIKE " ++ v.pattern d "%" ""
    | .new, [v] => " NOT LIKE " ++ v.pattern d "%" ""
    | _, _ => ""

/-- What joins a clause to the one before it. -/
def joinerSql : Option Joiner → String
  | none => ""
  | some .and => " AND "
  | some .or => " OR "

mutual

/-- **An expression**: a group stands between parentheses. -/
def Expr.sql (d : Dialect) : Expr → String
  | .compare c => c.sql d
  | .group clauses => "(" ++ clausesSql d clauses ++ ")"
  | .raw _ => ""

/-- **Clauses**, one after the other. -/
def clausesSql (d : Dialect) : List (Option Joiner × Expr) → String
  | [] => ""
  | (joiner, e) :: later => joinerSql joiner ++ e.sql d ++ clausesSql d later

end

/-! ## Values -/

variable {d : Dialect}

/-- The raw text of an operand has no quotes. -/
theorem Operand.WellFormed.quote_not_mem {o : Operand} (h : o.WellFormed) :
    '\'' ∉ o.raw.toList := by
  cases o with
  | text s => exact h
  | number s => exact h.1.not_mem (by decide)
  | column s => exact h.1.not_mem (by decide)
  | word s => exact h.1.not_mem (by decide)

/-- A text without quotes, as a literal. -/
theorem literal_eq {s : String} (h : '\'' ∉ s.toList) :
    literal d s = "'" ++ String.ofList (s.toList.filter (· != '\\')) ++ "'" := by
  have hkept : literalText '\'' s.toList = s.toList.filter (· != '\\') := by
    refine List.filter_congr fun c hc => ?_
    have hquote : c ≠ '\'' := by
      rintro rfl
      exact h hc
    have hkeeps : (c != '\'') = true := bne_iff_ne.2 hquote
    rw [hkeeps]
    rfl
  rw [literal, Dialect.valueQuote, hkept, ← String.toList_inj]
  simp

/-- **A well-formed operand as a value.** -/
theorem Operand.WellFormed.value_eq {o : Operand} (h : o.WellFormed) :
    o.value d .values = o.sql := by
  cases o with
  | number s => rfl
  | column s => rfl
  | text s => exact literal_eq h
  | word s =>
    have hslash : '\\' ∉ s.toList := h.1.not_mem (by decide)
    have hkept : s.toList.filter (· != '\\') = s.toList := by
      refine List.filter_eq_self.2 fun c hc => bne_iff_ne.2 ?_
      rintro rfl
      exact hslash hc
    have hliteral := literal_eq (d := d) h.quote_not_mem
    rw [Operand.raw, hkept, String.ofList_toList] at hliteral
    exact hliteral

/-- A pattern loses no quotes where there are none. -/
theorem patternText_eq {s : List Char} (h : '\'' ∉ s) : patternText s = s.flatMap patternChar := by
  induction s with
  | nil => rfl
  | cons c rest ih =>
    obtain ⟨hc, hrest⟩ := not_or.1 fun hmem => h (List.mem_cons.2 hmem)
    rw [patternText, List.flatMap_cons, ih hrest, patternChar]
    by_cases hslash : c = '\\'
    · simp [hslash]
    · by_cases hwild : c = '%' ∨ c = '_'
      · simp [Ne.symm hc, hslash, hwild]
      · simp [Ne.symm hc, hslash, hwild]

/-- **A well-formed operand as a pattern**, with the wildcards asked for around it. -/
theorem Operand.WellFormed.patternLiteral_eq {o : Operand} (h : o.WellFormed)
    (before after : Bool) :
    patternLiteral d before after o.raw ++ d.likeEscape =
      o.pattern d (if before then "%" else "") (if after then "%" else "") := by
  rw [patternLiteral, patternText_eq h.quote_not_mem, Dialect.valueQuote, Operand.pattern,
    ← String.toList_inj]
  cases before <;> cases after <;> simp

/-! ## Comparisons -/

/-- **A well-formed comparison in SQL.** -/
theorem Comparison.WellFormed.render_eq {c : Comparison} (h : c.WellFormed) :
    c.render d .values = c.sql d := by
  obtain ⟨f, op, operands⟩ := c
  obtain ⟨-, hoperands, hcount⟩ := h
  have hvalue : ∀ o ∈ operands, o.value d .values = o.sql := fun o ho => (hoperands o ho).value_eq
  have hpattern : ∀ o ∈ operands, ∀ before after,
      patternLiteral d before after o.raw ++ d.likeEscape = _ :=
    fun o ho => (hoperands o ho).patternLiteral_eq
  dsimp only at hcount hoperands
  cases op with
  | is_ | nis => simp [Comparison.render, Comparison.sql, Opcode.form, notText, String.append_assoc]
  | in_ | nin =>
    simp [Comparison.render, Comparison.sql, Opcode.form, notText, String.append_assoc,
      List.map_congr_left hvalue]
  | bt | nbt =>
    obtain ⟨low, high, rfl⟩ := List.length_eq_two.1 hcount
    simp [Comparison.render, Comparison.sql, Opcode.form, notText, String.append_assoc, hvalue]
  | _ =>
    obtain ⟨v, rfl⟩ := List.length_eq_one_iff.1 hcount
    simp [Comparison.render, Comparison.sql, Opcode.form, notText, String.append_assoc, hvalue,
      hpattern]

/-! ## Clauses -/

/-- The SQL of a well-formed comparison is not empty: it begins with the field. -/
theorem Comparison.WellFormed.sql_ne {c : Comparison} (h : c.WellFormed) : c.sql d ≠ "" := by
  simp [Comparison.sql, h.field.not_empty]

/-- What an expression contributes to the words of its list is one word. -/
def Expr.IsWritten (d : Dialect) (e : Expr) : Prop :=
  e.render d .values = e.sql d ∧ e.sql d ≠ ""

/-- The words of later clauses, after a word of the ones before. -/
theorem intercalate_clauseWords {clauses : List Clause} (h : ∀ c ∈ clauses, c.2.IsWritten d)
    (hjoined : ∀ c ∈ clauses, c.1 ≠ none) (word : String) :
    " ".intercalate (word :: clauseWords d .values clauses) = word ++ clausesSql d clauses := by
  induction clauses generalizing word with
  | nil => simp [clauseWords, clausesSql]
  | cons c later ih =>
    obtain ⟨joiner, e⟩ := c
    obtain ⟨⟨hrender, hne⟩, hlater⟩ := List.forall_mem_cons.1 h
    obtain ⟨hjoiner, hjoined_later⟩ := List.forall_mem_cons.1 hjoined
    cases joiner with
    | none => exact absurd rfl hjoiner
    | some j =>
      have hwords : clauseWords d .values ((some j, e) :: later) =
          j.keyword :: e.sql d :: clauseWords d .values later := by
        simp_all [clauseWords]
      have hkeyword : " " ++ j.keyword ++ " " = joinerSql (some j) := by cases j <;> rfl
      rw [hwords, String.intercalate_cons_cons, String.intercalate_cons_cons,
        ih hlater hjoined_later, clausesSql, ← hkeyword]
      simp [String.append_assoc]

/-- Clauses are written one after the other. -/
theorem render_joined {clauses : List Clause} (h : ∀ c ∈ clauses, c.2.IsWritten d)
    (hjoined : Joined clauses) : render d .values clauses = clausesSql d clauses := by
  cases clauses with
  | nil => simp [render, clauseWords, clausesSql]
  | cons c later =>
    obtain ⟨joiner, e⟩ := c
    obtain ⟨⟨hrender, hne⟩, hlater⟩ := List.forall_mem_cons.1 h
    obtain ⟨rfl, hjoined_later⟩ := hjoined
    have hwords : clauseWords d .values ((none, e) :: later) =
        e.sql d :: clauseWords d .values later := by
      simp_all [clauseWords]
    rw [render, hwords, intercalate_clauseWords hlater hjoined_later, clausesSql, joinerSql]
    simp

/-- **A well-formed expression in SQL.** -/
theorem Expr.WellFormed.isWritten {e : Expr} (h : e.WellFormed) : e.IsWritten d := by
  induction h with
  | compare h =>
    simp only [Expr.IsWritten, Expr.render, Expr.sql]
    exact ⟨h.render_eq, h.sql_ne⟩
  | group joined _ ih =>
    have hinner := render_joined ih joined
    rw [Filter.render] at hinner
    simp [Expr.IsWritten, Expr.render, Expr.sql, hinner]

/-- **A well-formed filter in SQL.** -/
theorem WellFormed.render_eq {clauses : List Clause} (h : WellFormed clauses) :
    render d .values clauses = clausesSql d clauses :=
  render_joined (fun c hc => (h.each c hc).isWritten) h.joined

/-! ## Whole filters -/

variable (d)

/-- **Filters mean what was written.** Every well-formed filter has a text, and every text that
writes it is read back as that filter, however deep its groups and whatever its quoted texts hold.
It compiles to the SQL of the filter, unless the dialect writes no filters. -/
theorem compile_writes {clauses : List Clause} (h : WellFormed clauses) :
    (∃ text : String, Writes clauses text.toList) ∧
      ∀ text : String, Writes clauses text.toList →
        parse (tokenize text) = .ok clauses ∧
        compile d text =
          if d.supportsFilters then .ok (clausesSql d clauses) else .error (.unsupported d) := by
  obtain ⟨chars, hchars⟩ := h.exists_writes
  refine ⟨⟨String.ofList chars, by rwa [String.toList_ofList]⟩, fun text htext => ?_⟩
  have hparse := h.parse_writes htext
  refine ⟨hparse, ?_⟩
  rw [compile, compileAs, parseText, ensureSupported, hparse]
  by_cases hd : d.supportsFilters = true
  · simp [hd, h.render_eq, bind, Except.bind, pure, Except.pure]
  · simp [hd, bind, Except.bind]

/-- A group and what follows it, with a quoted text that holds the signs of the grammar, an opcode
for a field, and opcodes and joiners in mixed case. -/
def mixedFilter : List Clause :=
  [(none, .group
      [(none, .compare ⟨"a", .eq, [.text "x),or,(y"]⟩),
        (some .or, .compare ⟨"eq", .bt, [.number "1", .column "t.c"]⟩)]),
    (some .and, .compare ⟨"b", .nis, []⟩)]

theorem compile_writes_mixed :
    WellFormed mixedFilter ∧
      parse (tokenize "(a,eQ,'x),or,(y',OR,eq,bt,1,t.c),And,b,NIS") = .ok mixedFilter ∧
      compile .postgres "(a,eQ,'x),or,(y',OR,eq,bt,1,t.c),And,b,NIS" =
        .ok "(a = 'x),or,(y' OR eq BETWEEN 1 AND t.c) AND b IS NOT NULL" := by
  have hwell : WellFormed mixedFilter := by
    refine ⟨⟨rfl, by simp⟩, ?_⟩
    simp only [mixedFilter, List.forall_mem_cons]
    refine ⟨.group ⟨rfl, by simp⟩ ?_, .compare (by decide +kernel), by simp⟩
    simp only [List.forall_mem_cons]
    exact ⟨.compare (by decide +kernel), .compare (by decide +kernel), by simp⟩
  have hwrites : Writes mixedFilter "(a,eQ,'x),or,(y',OR,eq,bt,1,t.c),And,b,NIS".toList := by
    simp only [mixedFilter, Writes, Expr.Writes]
    refine ⟨[], "(a,eQ,'x),or,(y',OR,eq,bt,1,t.c)".toList, ",And,b,NIS".toList, rfl, ?_, ?_, rfl⟩
    · refine ⟨"a,eQ,'x),or,(y',OR,eq,bt,1,t.c".toList, ?_, rfl⟩
      refine ⟨[], "a,eQ,'x),or,(y'".toList, ",OR,eq,bt,1,t.c".toList, rfl, ?_, ?_, rfl⟩
      · exact ⟨"eQ", by decide, rfl⟩
      · refine ⟨",OR,".toList, "eq,bt,1,t.c".toList, [], ?_, ?_, rfl, rfl⟩
        · exact ⟨"OR", by decide, rfl⟩
        · exact ⟨"bt", by decide, rfl⟩
    · refine ⟨",And,".toList, "b,NIS".toList, [], ?_, ?_, rfl, rfl⟩
      · exact ⟨"And", by decide, rfl⟩
      · exact ⟨"NIS", by decide, rfl⟩
  obtain ⟨hparse, hcompile⟩ := (compile_writes .postgres hwell).2 _ hwrites
  refine ⟨hwell, hparse, ?_⟩
  rw [hcompile]
  decide +kernel

end TableApi.Filter
