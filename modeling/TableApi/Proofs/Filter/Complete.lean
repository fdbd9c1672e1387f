import TableApi.Proofs.Filter.Sound

/-!
# No comparison is lost

A comparison without an operand that its form of SQL needs would be written as nothing, and the
filter would be wider than it was meant. No filter that is read has one: the operands of every
comparison are counted when its clause is read, whatever they were made from, and the grammar keeps
that at any depth (`complete`). So each comparison of a filter is written, beginning with its field
and its operator (`Comparison.render_of_takes`), and the SQL of the filter holds them all, one after
the other (`compileAs_comparisons`).
-/

namespace TableApi.Filter

variable {d : Dialect} {mode : Mode}

/-! ## The comparisons of a filter -/

mutual

/-- **The comparisons of an expression**, at any depth, from left to right. -/
def Expr.comparisons : Expr → List Comparison
  | .compare c => [c]
  | .group clauses => comparisons clauses
  | .raw _ => []

/-- **The comparisons of a clause list.** -/
def comparisons : List (Option Joiner × Expr) → List Comparison
  | [] => []
  | (_, e) :: later => e.comparisons ++ comparisons later

end

theorem comparisons_eq (clauses : List Clause) :
    comparisons clauses = clauses.flatMap fun c => c.2.comparisons := by
  induction clauses with
  | nil => rw [comparisons, List.flatMap_nil]
  | cons c later ih => rw [comparisons, List.flatMap_cons, ih]

/-! ## Operands are counted -/

/-- What a clause means has complete comparisons only. -/
theorem takes_of_interpret {items : List Item} {e : Expr} (h : interpret items = .ok e) :
    ∀ c ∈ e.comparisons, c.op.Takes c.operands.length := by
  dsimp only [interpret] at h
  split at h
  · split at h
    · obtain ⟨operands, hchecked, h⟩ := bind_eq_ok.1 h
      obtain rfl := Except.ok.inj h
      rw [Expr.comparisons]
      exact List.forall_mem_singleton.2 (takes_of_checkedOperands hchecked)
    · obtain rfl := Except.ok.inj h
      simp [Expr.comparisons]
  · obtain rfl := Except.ok.inj h
    simp [Expr.comparisons]

/-- **The grammar keeps that**, whatever the tokens. -/
def complete : Invariant where
  token _ := True
  item _ := True
  arg _ := True
  expr e := ∀ c ∈ e.comparisons, c.op.Takes c.operands.length
  item_of_token _ _ := trivial
  arg_of_bare _ := trivial
  arg_of_quoted _ := trivial
  arg_of_group _ := trivial
  arg_of_call _ _ := trivial
  item_of_call _ _ := trivial
  expr_of_items _ h := takes_of_interpret h
  expr_of_group h := by
    rw [Expr.comparisons, comparisons_eq]
    exact List.forall_mem_flatMap.2 h

/-- **Every comparison of a parsed filter** has the operands that its opcode takes. -/
theorem takes_of_parse {tokens : List Token} {clauses : List Clause}
    (h : parse tokens = .ok clauses) :
    ∀ c ∈ comparisons clauses, c.op.Takes c.operands.length := by
  rw [comparisons_eq]
  exact List.forall_mem_flatMap.2 (complete.parse (fun _ _ => trivial) h)

/-! ## Comparisons in SQL -/

/-- **The operator** of an opcode. -/
def Opcode.operator : Opcode → String
  | .eq => "="
  | .neq => "<>"
  | .lt | .nge => "<"
  | .le | .ngt => "<="
  | .ge | .nlt => ">="
  | .gt | .nle => ">"
  | .bt => "BETWEEN"
  | .nbt => "NOT BETWEEN"
  | .in_ => "IN"
  | .nin => "NOT IN"
  | .is_ => "IS NULL"
  | .nis => "IS NOT NULL"
  | .cs | .sw | .ew => "LIKE"
  | .ncs | .nsw | .new => "NOT LIKE"

/-- It is made of the words of its form. -/
theorem Opcode.operator_of_form (op : Opcode) :
    match op.form with
    | .symbol s => op.operator = s
    | .between negated => op.operator = notText negated ++ "BETWEEN"
    | .member negated => op.operator = notText negated ++ "IN"
    | .null negated => op.operator = "IS " ++ notText negated ++ "NULL"
    | .like negated _ _ => op.operator = notText negated ++ "LIKE" := by
  cases op <;> rfl

/-- **A complete comparison begins with its field and its operator.** -/
theorem Comparison.render_of_takes {c : Comparison} (h : c.op.Takes c.operands.length) :
    ∃ rest, c.render d mode = c.field ++ " " ++ c.op.operator ++ rest := by
  have hcount := Comparison.counted_of_takes h
  have hoperator := c.op.operator_of_form
  rw [Comparison.Counted] at hcount
  cases hform : c.op.form with
  | symbol s =>
    simp only [hform] at hcount hoperator
    obtain ⟨o, ho⟩ := List.length_eq_one_iff.1 hcount
    exact ⟨" " ++ o.value d mode, by
      simp only [Comparison.render, hform, ho, hoperator, String.append_assoc]⟩
  | between negated =>
    simp only [hform] at hcount hoperator
    obtain ⟨low, high, ho⟩ := List.length_eq_two.1 hcount
    have hword : "BETWEEN " = "BETWEEN" ++ " " := rfl
    exact ⟨" " ++ low.value d mode ++ " AND " ++ high.value d mode, by
      simp only [Comparison.render, hform, ho, hoperator, hword, String.append_assoc]⟩
  | member negated =>
    simp only [hform] at hoperator
    have hword : "IN (" = "IN" ++ " (" := rfl
    exact ⟨" (" ++ ",".intercalate (c.operands.map (Operand.value d mode)) ++ ")", by
      simp only [Comparison.render, hform, hoperator, hword, String.append_assoc]⟩
  | null negated =>
    simp only [hform] at hoperator
    have hword : " IS " = " " ++ "IS " := rfl
    exact ⟨"", by
      simp only [Comparison.render, hform, hoperator, hword, String.append_assoc,
        String.append_empty]⟩
  | like negated before after =>
    simp only [hform] at hcount hoperator
    obtain ⟨o, ho⟩ := List.length_eq_one_iff.1 hcount
    have hword : "LIKE " = "LIKE" ++ " " := rfl
    exact ⟨" " ++ patternLiteral d before after o.raw ++ d.likeEscape, by
      simp only [Comparison.render, hform, ho, hoperator, hword, String.append_assoc]⟩

/-! ## Filters in SQL -/

/-- **The text holds these texts**, one after the other. -/
inductive Holds : List String → String → Prop
  | nil (text : String) : Holds [] text
  | cons (before part : String) {parts : List String} {rest : String} (h : Holds parts rest) :
      Holds (part :: parts) (before ++ part ++ rest)

namespace Holds

variable {parts parts' : List String} {a b : String}

theorem prepend (h : Holds parts b) (a : String) : Holds parts (a ++ b) := by
  cases h with
  | nil => exact .nil _
  | cons before part h =>
    rw [← String.append_assoc, ← String.append_assoc]
    exact .cons _ _ h

/-- Two texts hold what each of them holds. -/
theorem append (ha : Holds parts a) (hb : Holds parts' b) : Holds (parts ++ parts') (a ++ b) := by
  induction ha with
  | nil text => exact hb.prepend text
  | cons before part _ ih =>
    rw [String.append_assoc]
    exact .cons _ _ ih

/-- A word before others, with a separator after it. -/
theorem intercalate_cons {sep : String} {words : List String} (ha : Holds parts a)
    (hwords : Holds parts' (sep.intercalate words)) :
    Holds (parts ++ parts') (sep.intercalate (a :: words)) := by
  cases words with
  | nil => simpa using ha.append hwords
  | cons b words =>
    rw [String.intercalate_cons_cons, String.append_assoc]
    exact ha.append (hwords.prepend sep)

end Holds

mutual

/-- **An expression in SQL holds its comparisons.** -/
theorem Expr.holds_comparisons (e : Expr) :
    Holds (e.comparisons.map (Comparison.render d mode)) (e.render d mode) := by
  match e with
  | .compare c =>
    rw [Expr.comparisons, Expr.render]
    simpa using Holds.cons "" (c.render d mode) (Holds.nil "")
  | .group clauses =>
    rw [Expr.comparisons, Expr.render, String.append_assoc]
    simpa using ((holds_clauseWords clauses).append (Holds.nil ")")).prepend "("
  | .raw operands =>
    rw [Expr.comparisons]
    exact .nil _

theorem holds_clauseWords (clauses : List (Option Joiner × Expr)) :
    Holds ((comparisons clauses).map (Comparison.render d mode))
      (" ".intercalate (clauseWords d mode clauses)) := by
  match clauses with
  | [] =>
    rw [comparisons]
    exact .nil _
  | (joiner, e) :: later =>
    have he := e.holds_comparisons
    have hlater := holds_clauseWords later
    rw [comparisons, clauseWords, List.map_append]
    -- an expression without text is left out, and holds no text that would be lost with it
    have hwords : Holds (e.comparisons.map (Comparison.render d mode) ++
        (comparisons later).map (Comparison.render d mode))
        (" ".intercalate ((if (e.render d mode).isEmpty then [] else [e.render d mode]) ++
          clauseWords d mode later)) := by
      split
      · next hempty =>
        rw [String.isEmpty_iff] at hempty
        simpa [hempty] using he.append hlater
      · exact he.intercalate_cons hlater
    cases joiner with
    | none => exact hwords
    | some j => exact (Holds.nil j.keyword).intercalate_cons hwords

end

/-- **No comparison is lost.** In a filter that compiles, every comparison at any depth has the
operands that its opcode takes. So it is written, and what is written begins with its field and its
operator. The SQL holds all of them, in the order in which they stand in the filter. -/
theorem compileAs_comparisons {text sql : String} (h : compileAs mode d text = .ok sql) :
    ∃ clauses, parseText d text = .ok clauses ∧
      (∀ c ∈ comparisons clauses, c.op.Takes c.operands.length ∧ c.render d mode ≠ "" ∧
        ∃ rest, c.render d mode = c.field ++ " " ++ c.op.operator ++ rest) ∧
      Holds ((comparisons clauses).map (Comparison.render d mode)) sql := by
  obtain ⟨clauses, hclauses, h⟩ := bind_eq_ok.1 h
  obtain rfl := Except.ok.inj h
  obtain ⟨-, -, hparse⟩ := bind_eq_ok.1 hclauses
  refine ⟨clauses, hclauses, fun c hc => ?_, holds_clauseWords clauses⟩
  have htakes := takes_of_parse hparse c hc
  obtain ⟨rest, hrest⟩ : ∃ rest, c.render d mode = c.field ++ " " ++ c.op.operator ++ rest :=
    Comparison.render_of_takes htakes
  exact ⟨htakes, by simp [hrest], rest, hrest⟩

/-- A call, a list, the word `null` and a range, in a group and after it. -/
theorem compileAs_comparisons_nested :
    let text := "(lower(name),nin,[a,'b,c'],or,x,is,null),and,n,bt,1,t.c"
    let sql := "(lower(name) NOT IN ('a','b,c') OR x IS NULL) AND n BETWEEN 1 AND t.c"
    compileAs .values .postgres text = .ok sql ∧
      ∃ clauses, parseText .postgres text = .ok clauses ∧
        comparisons clauses =
          [⟨"lower(name)", .nin, [.word "a", .text "b,c"]⟩, ⟨"x", .is_, []⟩,
            ⟨"n", .bt, [.number "1", .column "t.c"]⟩] ∧
        Holds ["lower(name) NOT IN ('a','b,c')", "x IS NULL", "n BETWEEN 1 AND t.c"] sql := by
  intro text sql
  have hcompile : compileAs .values .postgres text = .ok sql := by decide +kernel
  obtain ⟨clauses, hparse, -, hholds⟩ := compileAs_comparisons hcompile
  have hshown : (parseText .postgres text).toOption.map comparisons =
      some [⟨"lower(name)", .nin, [.word "a", .text "b,c"]⟩, ⟨"x", .is_, []⟩,
        ⟨"n", .bt, [.number "1", .column "t.c"]⟩] := by decide +kernel
  rw [hparse] at hshown
  have hcomparisons := Option.some.inj hshown
  rw [hcomparisons] at hholds
  have hwritten : [⟨"lower(name)", .nin, [.word "a", .text "b,c"]⟩, ⟨"x", .is_, []⟩,
      ⟨"n", .bt, [.number "1", .column "t.c"]⟩].map (Comparison.render .postgres .values) =
      ["lower(name) NOT IN ('a','b,c')", "x IS NULL", "n BETWEEN 1 AND t.c"] := by decide +kernel
  rw [hwritten] at hholds
  exact ⟨hcompile, clauses, hparse, hcomparisons, hholds⟩

end TableApi.Filter
