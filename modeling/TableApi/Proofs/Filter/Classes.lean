import TableApi.Proofs.Sql.Classes

/-!
# Patterns where brackets are wildcards

The pattern of a text escapes `%` and `_`. That is all that is needed in most dialects; in the one
whose patterns have classes of characters, an opening bracket is a wildcard too, and it is not
escaped. So there a pattern matches the texts that its opcode looks for, and no others, if and only
if the operand has no opening bracket (`compile_pattern_classes`).
-/

namespace TableApi

namespace Sql

/-- The dialect with classes names the backslash as its escape character. -/
theorem EscapedBy.eq_backslash {clause : List Char} {escape : Option Char}
    (h : EscapedBy .mssql clause escape) (hclause : clause = Dialect.mssql.likeEscape.toList) :
    escape = some '\\' := by
  cases h with
  | default => exact absurd hclause (by decide)
  | @named literal c hread =>
    have hsplit : Dialect.mssql.likeEscape.toList = " ESCAPE ".toList ++ "'\\'".toList := rfl
    have hliteral : literal = "'\\'".toList := List.append_cancel_left (hclause.trans hsplit)
    have hslash : readLiteral? .mssql "'\\'".toList = some ['\\'] := rfl
    rw [hliteral, hslash] at hread
    simpa using hread.symm

end Sql

namespace Filter

open Sql

/-- What a pattern of a text matches is up to the signs of its characters. -/
theorem likes_patternLiteral (before after : Bool) (text : String) (s : List Char) :
    Likes (patternLiteral .mssql before after text) Dialect.mssql.likeEscape s ↔
      ∃ signs, classSigns? none (patternMarks before after text.toList) = some signs ∧
        Matches signs s := by
  constructor
  · rintro ⟨escape, pattern, ms, signs, hescape, hpattern, hmarked, hsigns, hmatches⟩
    obtain rfl := hescape.eq_backslash rfl
    rw [readLiteral?_patternLiteral, Option.some_inj] at hpattern
    subst hpattern
    rw [marked?_pattern, Option.some_inj] at hmarked
    subst hmarked
    exact ⟨signs, hsigns, hmatches⟩
  · rintro ⟨signs, hsigns, hmatches⟩
    exact ⟨_, _, _, signs, escapedBy_likeEscape .mssql,
      readLiteral?_patternLiteral before after text, marked?_pattern before after _, hsigns,
      hmatches⟩

/-- The pattern of a text has the text's brackets. -/
@[simp] theorem bracket_mem_patternMarks (before after : Bool) (s : List Char) :
    .plain '[' ∈ patternMarks before after s ↔ '[' ∈ s := by
  have hwildcard : ∀ on, Marked.plain '[' ∉ (percentIf on).map .plain := by decide
  have htext : Marked.plain '[' ∈ (findable s).map literally ↔ '[' ∈ s := by
    simp only [List.mem_map, findable, List.mem_filter]
    constructor
    · rintro ⟨c, ⟨hc, -⟩, hsame⟩
      obtain rfl : c = '[' := congrArg Marked.char hsame
      exact hc
    · exact fun h => ⟨'[', ⟨h, by decide⟩, by decide⟩
  simp [patternMarks, hwildcard, htext]

/-- Every character of a text could stand for itself in its pattern. -/
@[simp] theorem weight_patternMarks (before after : Bool) (s : List Char) :
    weight (patternMarks before after s) = (findable s).length := by
  have hwildcard : ∀ on, weight ((percentIf on).map .plain) = 0 := by decide
  have htext : weight ((findable s).map literally) = (findable s).length := by
    rw [weight, List.countP_eq_length.2 ?_, List.length_map]
    intro m hm
    obtain ⟨c, -, rfl⟩ := List.mem_map.1 hm
    by_cases h : c = '%'
    · subst h
      decide
    · simp [literally, Marked.plain, h]
  have happend : ∀ ms ns, weight (ms ++ ns) = weight ms + weight ns := fun ms ns =>
    List.countP_append
  rw [patternMarks, happend, happend, hwildcard, hwildcard, htext]
  omega

/-- **A pattern with a class in it does not find its own text**, or it finds a shorter one too. -/
theorem not_finds_of_bracket {before after : Bool} {text : String} (h : '[' ∈ text.toList)
    {finds : List Char → Prop} (hself : finds (findable text.toList))
    (hlength : ∀ s, finds s → (findable text.toList).length ≤ s.length) :
    ¬∀ s, Likes (patternLiteral .mssql before after text) Dialect.mssql.likeEscape s ↔ finds s := by
  intro hall
  obtain ⟨signs, hsigns, hmatches⟩ :=
    (likes_patternLiteral before after text _).1 ((hall _).2 hself)
  obtain ⟨short, hshort, hwidth⟩ := hmatches.exists_shortest
  have hfound :=
    (hall short).1 ((likes_patternLiteral before after text _).2 ⟨signs, hsigns, hshort⟩)
  have hfewer := width_lt_of_classSigns? hsigns
    ((bracket_mem_patternMarks before after text.toList).2 h)
  rw [weight_patternMarks] at hfewer
  have hlong := hlength short hfound
  omega

/-- **Patterns with classes find what was asked for, unless a bracket opens in it.** A comparison
that looks for a text is written with a pattern, in both modes, and a filter that is read as the
comparison is compiled to it. The pattern matches the texts in which the opcode finds the operand,
and no others, if and only if the operand has no opening bracket. -/
theorem compile_pattern_classes {op : Opcode} (hop : op ∈ patternOpcodes) (mode : Mode)
    (field : String) (o : Operand) :
    ∃ pattern,
      Comparison.render .mssql mode ⟨field, op, [o]⟩ = patternSql .mssql op field pattern ∧
      (∀ text, parse (tokenize text) = .ok [(none, .compare ⟨field, op, [o]⟩)] →
        compileAs mode .mssql text = .ok (patternSql .mssql op field pattern)) ∧
      (IsName field → o.WellFormed → ∀ text : String,
        Comparison.Writes ⟨field, op, [o]⟩ text.toList →
        compileAs mode .mssql text = .ok (patternSql .mssql op field pattern)) ∧
      ((∀ s, Likes pattern Dialect.mssql.likeEscape s ↔ op.Finds (findable o.raw.toList) s) ↔
        '[' ∉ o.raw.toList) := by
  obtain ⟨before, after, hwritten, hfinds⟩ := exists_render_pattern hop
  have hrender := hwritten .mssql mode field o
  have hcompile : ∀ text, parse (tokenize text) = .ok [(none, .compare ⟨field, op, [o]⟩)] →
      compileAs mode .mssql text =
        .ok (patternSql .mssql op field (patternLiteral .mssql before after o.raw)) :=
    fun text hparse => hrender ▸ compileAs_compare rfl mode hparse
  refine ⟨_, hrender, hcompile, fun hfield ho text htext =>
    hcompile text (parse_writes_pattern hop hfield ho htext), ?_⟩
  constructor
  · intro hall hbracket
    refine not_finds_of_bracket hbracket ?_ (fun s hs => ?_) hall
    · exact (hfinds _ _).2 ⟨[], [], by simp⟩
    · obtain ⟨a, b, rfl, -⟩ := (hfinds _ _).1 hs
      simp only [List.length_append]
      omega
  · intro hbracket s
    have hclass := mt (bracket_mem_patternMarks before after o.raw.toList).1 hbracket
    have hsigns : (patternMarks before after o.raw.toList).map Marked.sign =
        manyIf before ++ ((findable o.raw.toList).map .exactly ++ manyIf after) :=
      map_sign_patternMarks before after _
    rw [likes_patternLiteral, classSigns?_of_not_mem hclass, hsigns, hfinds]
    simp only [Option.some.injEq, exists_eq_left', matches_around]

/-- A closing bracket by itself is no wildcard, and the wildcards of the operand are escaped. -/
theorem compile_pattern_classes_closing :
    Opcode.cs ∈ patternOpcodes ∧
      compile .mssql "label,cs,'5%]'" = .ok "label LIKE '%5\\%]%' ESCAPE '\\'" ∧
      Likes "'%5\\%]%'" " ESCAPE '\\'" "now 5%]".toList ∧
      ¬Likes "'%5\\%]%'" " ESCAPE '\\'" "5 pct]".toList := by
  have hshown : compile .mssql "label,cs,'5%]'" = .ok "label LIKE '%5\\%]%' ESCAPE '\\'" := by
    decide +kernel
  obtain ⟨pattern, -, -, hcompile, hlikes⟩ :=
    compile_pattern_classes (by decide : Opcode.cs ∈ patternOpcodes) .values "label" (.text "5%]")
  have hsame : "label LIKE " ++ pattern ++ " ESCAPE '\\'" =
      "label LIKE " ++ "'%5\\%]%'" ++ " ESCAPE '\\'" :=
    Except.ok.inj ((hcompile (by decide +kernel) (by decide +kernel) "label,cs,'5%]'"
      ⟨"cs", by decide, rfl⟩).symm.trans hshown)
  obtain rfl : pattern = "'%5\\%]%'" := by
    simpa only [String.append_left_inj, String.append_right_inj] using hsame
  have hfinds := hlikes.2 (by decide)
  exact ⟨by decide, hshown, (hfinds _).2 (by decide), fun h => absurd ((hfinds _).1 h) (by decide)⟩

/-- An operand in brackets is taken for a class: texts without it are found, and texts with it are
not. -/
theorem likes_operand_in_brackets :
    compile .mssql "name,cs,'[a]'" = .ok "name LIKE '%[a]%' ESCAPE '\\'" ∧
      Likes "'%[a]%'" " ESCAPE '\\'" "a".toList ∧ ¬Opcode.cs.Finds "[a]".toList "a".toList ∧
      compile .mssql "name,sw,'[a]'" = .ok "name LIKE '[a]%' ESCAPE '\\'" ∧
      ¬Likes "'[a]%'" " ESCAPE '\\'" "[a]".toList ∧ Opcode.sw.Finds "[a]".toList "[a]".toList := by
  refine ⟨by decide +kernel, ?_, by decide, by decide +kernel, ?_, by decide⟩
  · have hsigns : classSigns? none (patternMarks true true "[a]".toList) =
        some [.many, .ofClass [.plain 'a'], .many] := rfl
    exact (likes_patternLiteral true true "[a]" _).2
      ⟨_, hsigns, .stop (.one (by decide) (.stop .nil))⟩
  · have hsigns : classSigns? none (patternMarks false true "[a]".toList) =
        some [.ofClass [.plain 'a'], .many] := rfl
    intro h
    obtain ⟨signs, hsome, hmatches⟩ := (likes_patternLiteral false true "[a]" _).1 h
    rw [hsigns, Option.some_inj] at hsome
    subst hsome
    cases hmatches with
    | one here _ => exact absurd here (by decide)

end Filter

end TableApi
