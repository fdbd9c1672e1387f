import TableApi.Filter.Parser

/-!
# Filters in SQL

The boolean text of a filter. Values are written so that no request can end a literal early: single
quotes and backslashes are dropped from texts, and in patterns the wildcards of `LIKE` are escaped.
`compile` reads and writes a whole filter; `equality` writes the filter that picks rows by key.
-/

namespace TableApi.Filter

/-- **What bare words are**: text values, or names as in a join condition. -/
inductive Mode
  | values
  | identifiers
deriving DecidableEq, Repr, Inhabited

/-- A text as it stands between quotes. -/
def literalText (quote : Char) (s : List Char) : List Char :=
  s.filter fun c => c != quote && c != '\'' && c != '\\'

/-- A text between the quotes of a dialect. -/
def literal (d : Dialect) (s : String) : String :=
  String.ofList (d.valueQuote :: (literalText d.valueQuote s.toList ++ [d.valueQuote]))

/-- A text as it stands in a pattern: it matches itself and nothing else. -/
def patternText : List Char → List Char
  | [] => []
  | c :: rest =>
    if c = '\'' ∨ c = '\\' then patternText rest
    else if c = '%' ∨ c = '_' then '\\' :: c :: patternText rest
    else c :: patternText rest

/-- An operand as a value. -/
def Operand.value (d : Dialect) (mode : Mode) : Operand → String
  | .number s | .column s => s
  | .word s => if mode = .identifiers then s else literal d s
  | .text s => literal d s

/-- `NOT ` where a form is negated. -/
def notText (negated : Bool) : String :=
  if negated then "NOT " else ""

/-- A pattern literal with the wildcards asked for around a text. -/
def patternLiteral (d : Dialect) (before after : Bool) (s : String) : String :=
  let wildcard (on : Bool) : List Char := if on then ['%'] else []
  String.ofList
    (d.valueQuote ::
      (wildcard before ++ patternText s.toList ++ wildcard after ++ [d.valueQuote]))

/-- **A comparison in SQL.** -/
def Comparison.render (d : Dialect) (mode : Mode) (c : Comparison) : String :=
  match c.op.form, c.operands with
  | .symbol s, o :: _ => c.field ++ " " ++ s ++ " " ++ o.value d mode
  | .between negated, [low, high] =>
    c.field ++ " " ++ notText negated ++ "BETWEEN " ++ low.value d mode ++ " AND "
      ++ high.value d mode
  | .member negated, operands =>
    c.field ++ " " ++ notText negated ++ "IN ("
      ++ ",".intercalate (operands.map (Operand.value d mode)) ++ ")"
  | .null negated, _ => c.field ++ " IS " ++ notText negated ++ "NULL"
  | .like negated before after, o :: _ =>
    c.field ++ " " ++ notText negated ++ "LIKE " ++ patternLiteral d before after o.raw
      ++ d.likeEscape
  | .symbol _, [] | .between _, _ | .like _ _ _, [] => ""

/-- The keyword of a joiner. -/
def Joiner.keyword : Joiner → String
  | .and => "AND"
  | .or => "OR"

/-- An operand among raw words: only quoted text is written as a value. -/
def Operand.rawText (d : Dialect) (mode : Mode) : Operand → String
  | .text s => (Operand.text s).value d mode
  | o => o.raw

mutual

/-- **An expression in SQL.** -/
def Expr.render (d : Dialect) (mode : Mode) : Expr → String
  | .compare c => c.render d mode
  | .group clauses => "(" ++ " ".intercalate (clauseWords d mode clauses) ++ ")"
  | .raw operands => " ".intercalate (operands.map (Operand.rawText d mode))

/-- The words of a clause list: joiners and expressions, without the expressions that are empty. -/
def clauseWords (d : Dialect) (mode : Mode) : List (Option Joiner × Expr) → List String
  | [] => []
  | (joiner, e) :: clauses =>
    joiner.toList.map Joiner.keyword ++
      (let text := e.render d mode
       if text.isEmpty then [] else [text]) ++
      clauseWords d mode clauses

end

/-- The text of a clause list. -/
def render (d : Dialect) (mode : Mode) (clauses : List Clause) : String :=
  " ".intercalate (clauseWords d mode clauses)

/-- The dialect writes filters, or an error says that it does not. -/
def ensureSupported (d : Dialect) : Except FilterError Unit :=
  if d.supportsFilters then pure () else .error (.unsupported d)

/-- **The clauses of a filter's text.** -/
def parseText (d : Dialect) (text : String) : Except FilterError (List Clause) := do
  ensureSupported d
  parse (tokenize text)

/-- A filter in SQL. -/
def compileAs (mode : Mode) (d : Dialect) (text : String) : Except FilterError String := do
  let clauses ← parseText d text
  pure (render d mode clauses)

/-- **A filter as the text of a condition**; bare words are text values. -/
def compile (d : Dialect) (text : String) : Except FilterError String :=
  compileAs .values d text

/-- A join condition in SQL; bare words are names. -/
def compileCondition (d : Dialect) (text : String) : Except FilterError String :=
  compileAs .identifiers d text

/-- A key as an operand: a number is one, anything else is text. -/
def keyOperand (value : String) : Operand :=
  if isNumber value.toList then .number value else .text value

/-- **The condition that a column has one of these values.** The names are quoted, so the column is
clear next to joined tables. -/
def equality (d : Dialect) (table column : String) (values : List String) :
    Except FilterError String := do
  ensureSupported d
  let field := d.quoteIdent table ++ "." ++ d.quoteIdent column
  let operands := values.map keyOperand
  match operands with
  | [] => .error (.arity "eq" 1 0)
  | [_] => pure (render d .values [(none, .compare ⟨field, .eq, operands⟩)])
  | _ => pure (render d .values [(none, .compare ⟨field, .in_, operands⟩)])

end TableApi.Filter
