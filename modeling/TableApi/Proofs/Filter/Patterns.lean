import TableApi.Proofs.Filter.Literals
import TableApi.Proofs.Filter.Reading
import TableApi.Proofs.Sql.Like

/-!
# Patterns find the text that was asked for

Six opcodes look for a text in a field: anywhere in it, at its beginning or at its end, and the
opposite of each (`Opcode.Finds`). They are written with `LIKE` and a pattern. Whatever the operand
is, its pattern is read by the database (`Sql.IsPattern`) as the operand's own characters, each
standing for itself, between the wildcards that the opcode puts there. So it matches the texts that
the opcode looks for and no others (`compile_pattern`). Quotes and backslashes are not looked for.
-/

namespace TableApi

namespace Sql

variable {d : Dialect} {q r s : List Char}

/-! ## Reading a pattern in a statement -/

/-- The escape character of patterns for which none is named. -/
def defaultEscape : Dialect → Option Char
  | .postgres | .mysql => some '\\'
  | .mssql | .sqlite | .oracle => none

/-- **What follows a pattern's literal names its escape character**: nothing, or a literal of one
character. -/
inductive EscapedBy (d : Dialect) : List Char → Option Char → Prop
  | default : EscapedBy d [] (defaultEscape d)
  | named {literal : List Char} {c : Char} (h : readLiteral? d literal = some [c]) :
      EscapedBy d (" ESCAPE ".toList ++ literal) (some c)

/-- **A literal, with what follows it, is a pattern of these signs.** -/
structure IsPattern (d : Dialect) (literal clause : String) (signs : List Sign) : Prop where
  /-- One dialect has other wildcards besides those of `signs?`. -/
  wildcards : d ≠ .mssql
  read : ∃ escape pattern, EscapedBy d clause.toList escape ∧
    readLiteral? d literal.toList = some pattern ∧ signs? escape pattern = some signs

/-- A character that neither ends a literal nor escapes is read as it is. -/
theorem readRest?_cons {c : Char} (hquote : c ≠ '\'') (hslash : c ≠ '\\')
    (h : readRest? d q = some r) : readRest? d (c :: q) = some (c :: r) := by
  cases q with
  | nil => simp [readRest?] at h
  | cons next rest =>
    rw [readRest?, if_neg hquote, if_neg fun hescape => hslash hescape.2, h]
    rfl

/-- An escaped wildcard is read as it is in every dialect, with its backslash. -/
theorem readRest?_wildcard {c : Char} (hc : c = '%' ∨ c = '_') (h : readRest? d q = some r) :
    readRest? d ('\\' :: c :: q) = some ('\\' :: c :: r) := by
  rw [readRest?, if_neg (by decide)]
  split
  · rw [h]
    rcases hc with rfl | rfl <;> rfl
  · have hplain : c ≠ '\'' ∧ c ≠ '\\' := by rcases hc with rfl | rfl <;> decide
    rw [readRest?_cons hplain.1 hplain.2 h]
    rfl

end Sql

namespace Filter

open Sql

variable {d : Dialect} {q r : List Char}

/-! ## What is looked for -/

/-- The opcodes that look for a text. -/
def patternOpcodes : List Opcode := [.cs, .ncs, .sw, .nsw, .ew, .new]

/-- The ones that look for its absence. -/
def negatedOpcodes : List Opcode := [.ncs, .nsw, .new]

/-- **Where an opcode looks for a text**: anywhere, at the beginning, or at the end. -/
def Opcode.Finds (op : Opcode) (v s : List Char) : Prop :=
  match op with
  | .cs | .ncs => v <:+: s
  | .sw | .nsw => v <+: s
  | .ew | .new => v <:+ s
  | _ => False

instance : (op : Opcode) → (v s : List Char) → Decidable (op.Finds v s)
  | .cs, v, s | .ncs, v, s => inferInstanceAs (Decidable (v <:+: s))
  | .sw, v, s | .nsw, v, s => inferInstanceAs (Decidable (v <+: s))
  | .ew, v, s | .new, v, s => inferInstanceAs (Decidable (v <:+ s))
  | .eq, _, _ | .neq, _, _ | .lt, _, _ | .le, _, _ | .ge, _, _ | .gt, _, _ | .nlt, _, _
  | .nle, _, _ | .nge, _, _ | .ngt, _, _ | .bt, _, _ | .nbt, _, _ | .in_, _, _ | .nin, _, _
  | .is_, _, _ | .nis, _, _ => inferInstanceAs (Decidable False)

/-- What of a text can be looked for: all but its quotes and backslashes. -/
def findable (s : List Char) : List Char :=
  s.filter fun c => c ≠ '\'' ∧ c ≠ '\\'

/-! ## The pattern of a text -/

/-- The wildcard, where it is asked for. -/
def percentIf (on : Bool) : List Char :=
  if on then ['%'] else []

/-- The pattern of a text is read out of a literal as it is. -/
theorem readRest?_patternText (h : readRest? d q = some r) (s : List Char) :
    readRest? d (patternText s ++ q) = some (patternText s ++ r) := by
  fun_induction patternText s with
  | case1 => exact h
  | case2 c rest hc ih => exact ih
  | case3 c rest hc hwild ih => exact readRest?_wildcard hwild ih
  | case4 c rest hc hwild ih =>
    obtain ⟨hquote, hslash⟩ := not_or.1 hc
    exact readRest?_cons hquote hslash ih

theorem readRest?_percentIf (h : readRest? d q = some r) (on : Bool) :
    readRest? d (percentIf on ++ q) = some (percentIf on ++ r) := by
  cases on with
  | false => exact h
  | true => exact readRest?_cons (by decide) (by decide) h

/-- **The literal of a pattern is read as the pattern.** -/
theorem readLiteral?_patternLiteral (before after : Bool) (s : String) :
    readLiteral? d (patternLiteral d before after s).toList =
      some (percentIf before ++ (patternText s.toList ++ percentIf after)) := by
  have hend : readRest? d ['\''] = some [] := rfl
  have hbody := readRest?_percentIf (readRest?_patternText (readRest?_percentIf hend after)
    s.toList) before
  rw [patternLiteral, String.toList_ofList]
  simpa [readLiteral?, Dialect.valueQuote, percentIf] using hbody

/-- A character of a text as its pattern has it: escaped if it is a wildcard. -/
def literally (c : Char) : Marked :=
  ⟨c, c = '%' ∨ c = '_'⟩

/-- **The characters of a text's pattern** are the text's, its wildcards escaped. -/
theorem marked?_patternText {ms : List Marked} (h : marked? (some '\\') q = some ms)
    (s : List Char) :
    marked? (some '\\') (patternText s ++ q) = some ((findable s).map literally ++ ms) := by
  fun_induction patternText s with
  | case1 => exact h
  | case2 c rest hc ih =>
    have hlost : findable (c :: rest) = findable rest := by
      rcases hc with rfl | rfl <;> simp [findable]
    rw [ih, hlost]
  | case3 c rest hc hwild ih =>
    have hkept : findable (c :: rest) = c :: findable rest := by simp [findable, not_or.1 hc]
    rw [List.cons_append, List.cons_append, marked?_escaped, ih, hkept]
    simp [literally, hwild]
  | case4 c rest hc hwild ih =>
    obtain ⟨hquote, hslash⟩ := not_or.1 hc
    have hkept : findable (c :: rest) = c :: findable rest := by simp [findable, hquote, hslash]
    have hescape : some '\\' ≠ some c := by simpa using Ne.symm hslash
    rw [List.cons_append, marked?_cons hescape, ih, hkept]
    simp [literally, hwild, Marked.plain]

/-- **The characters of a pattern** with the wildcards asked for around a text. -/
def patternMarks (before after : Bool) (s : List Char) : List Marked :=
  (percentIf before).map .plain ++ ((findable s).map literally ++ (percentIf after).map .plain)

/-- A pattern has these characters where backslashes escape. -/
theorem marked?_pattern (before after : Bool) (s : List Char) :
    marked? (some '\\') (percentIf before ++ (patternText s ++ percentIf after)) =
      some (patternMarks before after s) := by
  have hafter : marked? (some '\\') (percentIf after) = some ((percentIf after).map .plain) := by
    cases after <;> rfl
  have htext := marked?_patternText hafter s
  cases before with
  | false => exact htext
  | true =>
    have hescape : some '\\' ≠ some '%' := by decide
    rw [percentIf, if_pos rfl, List.singleton_append, marked?_cons hescape, htext]
    rfl

/-- A character of a text stands for itself in its pattern. -/
@[simp] theorem sign_literally (c : Char) : (literally c).sign = .exactly c := by
  by_cases h : c = '%' ∨ c = '_'
  · simp [literally, Marked.sign, h]
  · have hne := not_or.1 h
    simp [literally, Marked.sign, Sign.ofChar, hne]

@[simp] theorem sign_percentIf (on : Bool) :
    ((percentIf on).map Marked.plain).map Marked.sign = manyIf on := by
  cases on <;> rfl

/-- **What the characters of a pattern stand for**: the text's for themselves. -/
theorem map_sign_patternMarks (before after : Bool) (s : List Char) :
    (patternMarks before after s).map Marked.sign =
      manyIf before ++ ((findable s).map .exactly ++ manyIf after) := by
  have htext : ((findable s).map literally).map Marked.sign = (findable s).map .exactly := by
    rw [List.map_map]
    exact List.map_congr_left fun c _ => sign_literally c
  rw [patternMarks, List.map_append, List.map_append, sign_percentIf, sign_percentIf, htext]

/-- Backslashes escape in every dialect, by default or because that is named. -/
theorem escapedBy_likeEscape (d : Dialect) : EscapedBy d d.likeEscape.toList (some '\\') := by
  have hslash : d ≠ .mysql → readLiteral? d "'\\'".toList = some ['\\'] := by
    intro hd
    cases d with
    | mysql => exact absurd rfl hd
    | postgres => rfl
    | mssql => rfl
    | sqlite => rfl
    | oracle => rfl
  cases d with
  | postgres => exact .default
  | mysql => exact .default
  | mssql => exact .named (hslash (by decide))
  | sqlite => exact .named (hslash (by decide))
  | oracle => exact .named (hslash (by decide))

/-- **The pattern of a text** is that text, with the wildcards asked for around it. -/
theorem isPattern_patternLiteral (hd : d ≠ .mssql) (before after : Bool) (s : String) :
    IsPattern d (patternLiteral d before after s) d.likeEscape
      (manyIf before ++ ((findable s.toList).map .exactly ++ manyIf after)) := by
  refine ⟨hd, some '\\', _, escapedBy_likeEscape d, readLiteral?_patternLiteral before after s, ?_⟩
  rw [signs?_eq, marked?_pattern, Option.map_some, map_sign_patternMarks]

/-! ## Comparisons -/

/-- How an opcode that looks for a text is written, and what its wildcards find. -/
theorem form_of_mem_patternOpcodes {op : Opcode} (h : op ∈ patternOpcodes) :
    ∃ before after, op.form = .like (op ∈ negatedOpcodes) before after ∧
      ∀ v s : List Char, op.Finds v s ↔
        ∃ a b, s = a ++ (v ++ b) ∧ (before = true ∨ a = []) ∧ (after = true ∨ b = []) := by
  have hinfix : ∀ v s : List Char, v <:+: s ↔ ∃ a b, s = a ++ (v ++ b) := by
    intro v s
    simp [List.IsInfix, eq_comm]
  have hprefix : ∀ v s : List Char, v <+: s ↔ ∃ b, s = v ++ b := by
    intro v s
    simp [List.IsPrefix, eq_comm]
  have hsuffix : ∀ v s : List Char, v <:+ s ↔ ∃ a, s = a ++ v := by
    intro v s
    simp [List.IsSuffix, eq_comm]
  simp only [patternOpcodes, List.mem_cons, List.not_mem_nil, or_false] at h
  rcases h with rfl | rfl | rfl | rfl | rfl | rfl
  · exact ⟨true, true, by decide, by simp [Opcode.Finds, hinfix]⟩
  · exact ⟨true, true, by decide, by simp [Opcode.Finds, hinfix]⟩
  · exact ⟨false, true, by decide, by simp [Opcode.Finds, hprefix]⟩
  · exact ⟨false, true, by decide, by simp [Opcode.Finds, hprefix]⟩
  · exact ⟨true, false, by decide, by simp [Opcode.Finds, hsuffix]⟩
  · exact ⟨true, false, by decide, by simp [Opcode.Finds, hsuffix]⟩

/-- **A comparison with a pattern**: the opcodes that look for the absence of a text negate it. -/
def patternSql (d : Dialect) (op : Opcode) (field pattern : String) : String :=
  field ++ (if op ∈ negatedOpcodes then " NOT LIKE " else " LIKE ") ++ pattern ++ d.likeEscape

theorem likeWords (op : Opcode) :
    " " ++ notText (op ∈ negatedOpcodes) ++ "LIKE " =
      if op ∈ negatedOpcodes then " NOT LIKE " else " LIKE " := by
  by_cases h : op ∈ negatedOpcodes
  · rw [if_pos h, decide_eq_true h]
    rfl
  · rw [if_neg h, decide_eq_false h]
    rfl

theorem takes_of_mem_patternOpcodes {op : Opcode} (h : op ∈ patternOpcodes) : op.Takes 1 := by
  simp only [patternOpcodes, List.mem_cons, List.not_mem_nil, or_false] at h
  rcases h with rfl | rfl | rfl | rfl | rfl | rfl <;> rfl

/-- A filter that is one comparison is written as that comparison. -/
theorem compileAs_compare (hd : d.supportsFilters = true) (mode : Mode) {text : String}
    {c : Comparison} (hparse : parse (tokenize text) = .ok [(none, .compare c)]) :
    compileAs mode d text = .ok (c.render d mode) := by
  simp [compileAs, parseText, ensureSupported, hd, hparse, bind, Except.bind, pure, Except.pure]

theorem Comparison.WellFormed.parse_writes {c : Comparison} (h : c.WellFormed) {text : String}
    (htext : c.Writes text.toList) : parse (tokenize text) = .ok [(none, .compare c)] := by
  have hwell : Filter.WellFormed [(none, .compare c)] :=
    ⟨⟨rfl, by simp⟩, List.forall_mem_singleton.2 (.compare h)⟩
  refine hwell.parse_writes ?_
  simp only [Filter.Writes, Expr.Writes]
  exact ⟨[], _, [], rfl, htext, rfl, by simp⟩

/-- **Such a comparison is written with the pattern of its operand**, between the wildcards of its
opcode. -/
theorem exists_render_pattern {op : Opcode} (h : op ∈ patternOpcodes) :
    ∃ before after,
      (∀ d mode field (o : Operand), Comparison.render d mode ⟨field, op, [o]⟩ =
        patternSql d op field (patternLiteral d before after o.raw)) ∧
      ∀ v s : List Char, op.Finds v s ↔
        ∃ a b, s = a ++ (v ++ b) ∧ (before = true ∨ a = []) ∧ (after = true ∨ b = []) := by
  obtain ⟨before, after, hform, hfinds⟩ := form_of_mem_patternOpcodes h
  refine ⟨before, after, fun d mode field o => ?_, hfinds⟩
  rw [patternSql, ← likeWords]
  simp [Comparison.render, hform, String.append_assoc]

/-- A written comparison of such an opcode is read back. -/
theorem parse_writes_pattern {op : Opcode} (hop : op ∈ patternOpcodes) {field : String}
    {o : Operand}
    (hfield : IsName field) (ho : o.WellFormed) {text : String}
    (htext : Comparison.Writes ⟨field, op, [o]⟩ text.toList) :
    parse (tokenize text) = .ok [(none, .compare ⟨field, op, [o]⟩)] := by
  have hwell : Comparison.WellFormed ⟨field, op, [o]⟩ :=
    ⟨hfield, List.forall_mem_singleton.2 ho, takes_of_mem_patternOpcodes hop⟩
  exact hwell.parse_writes htext

/-- **Patterns find what was asked for.** A comparison that looks for a text is written with a
pattern, wherever it stands in a filter and in both modes. The database reads the pattern so that it
matches a text if and only if the opcode finds in it what the operand asks for. A filter that writes
the comparison is compiled to it. -/
theorem compile_pattern (hd : d.supportsFilters = true) (hmssql : d ≠ .mssql) {op : Opcode}
    (hop : op ∈ patternOpcodes) (mode : Mode) (field : String) (o : Operand) :
    ∃ pattern signs,
      Comparison.render d mode ⟨field, op, [o]⟩ = patternSql d op field pattern ∧
      (∀ text, parse (tokenize text) = .ok [(none, .compare ⟨field, op, [o]⟩)] →
        compileAs mode d text = .ok (patternSql d op field pattern)) ∧
      (IsName field → o.WellFormed → ∀ text : String,
        Comparison.Writes ⟨field, op, [o]⟩ text.toList →
        compileAs mode d text = .ok (patternSql d op field pattern)) ∧
      IsPattern d pattern d.likeEscape signs ∧
      ∀ s, Matches signs s ↔ op.Finds (findable o.raw.toList) s := by
  obtain ⟨before, after, hwritten, hfinds⟩ := exists_render_pattern hop
  have hrender := hwritten d mode field o
  have hcompile : ∀ text, parse (tokenize text) = .ok [(none, .compare ⟨field, op, [o]⟩)] →
      compileAs mode d text = .ok (patternSql d op field (patternLiteral d before after o.raw)) :=
    fun text hparse => hrender ▸ compileAs_compare hd mode hparse
  refine ⟨_, _, hrender, hcompile, fun hfield ho text htext =>
      hcompile text (parse_writes_pattern hop hfield ho htext),
    isPattern_patternLiteral hmssql before after o.raw, fun s => ?_⟩
  rw [matches_around, hfinds]

/-- Wildcards of the operand are looked for as they are. -/
theorem compile_pattern_discount :
    Dialect.sqlite.supportsFilters = true ∧ Dialect.sqlite ≠ .mssql ∧
      Opcode.new ∈ patternOpcodes ∧
      compile .sqlite "label,new,'50%_o\\k'" =
        .ok "label NOT LIKE '%50\\%\\_ok' ESCAPE '\\'" ∧
      ∃ signs, IsPattern .sqlite "'%50\\%\\_ok'" " ESCAPE '\\'" signs ∧
        Matches signs "now 50%_ok".toList ∧ ¬Matches signs "now 50 pct ok".toList := by
  have hshown : compile .sqlite "label,new,'50%_o\\k'" =
      .ok "label NOT LIKE '%50\\%\\_ok' ESCAPE '\\'" := by decide +kernel
  obtain ⟨pattern, signs, -, -, hcompile, hpattern, hmatches⟩ :=
    compile_pattern (d := .sqlite) rfl (by decide) (by decide : Opcode.new ∈ patternOpcodes) .values
      "label" (.text "50%_o\\k")
  have hsql := hcompile (by decide +kernel) (by decide +kernel) "label,new,'50%_o\\k'"
    ⟨"new", by decide, rfl⟩
  have hsame : "label NOT LIKE " ++ pattern ++ " ESCAPE '\\'" =
      "label NOT LIKE " ++ "'%50\\%\\_ok'" ++ " ESCAPE '\\'" :=
    Except.ok.inj (hsql.symm.trans hshown)
  obtain rfl : pattern = "'%50\\%\\_ok'" := by
    simpa only [String.append_left_inj, String.append_right_inj] using hsame
  refine ⟨rfl, by decide, by decide, hshown, signs, hpattern, ?_, ?_⟩
  · rw [hmatches]
    decide
  · rw [hmatches]
    decide

end Filter

end TableApi
