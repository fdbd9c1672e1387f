import TableApi.Filter.Opcode
import TableApi.Text.Cut
import TableApi.Text.Digit

/-!
# Filter expressions

What a filter means once it is read: clauses joined by *and* and *or*, each a comparison, a group
of clauses, or text without an opcode. Operands remember how they were written, because that
decides whether they stand in SQL bare or as quoted text.
-/

namespace TableApi.Filter

/-- **An operand.** -/
inductive Operand
  /-- A number, written bare. -/
  | number (text : String)
  /-- A reference to a column of a table, written bare. -/
  | column (text : String)
  /-- A word: a text value, or a name in a join condition. -/
  | word (text : String)
  /-- A text that was quoted. -/
  | text (text : String)
deriving DecidableEq, Repr, Inhabited

/-- The text of an operand, however it was written. -/
def Operand.raw : Operand → String
  | .number s | .column s | .word s | .text s => s

/-- How a clause continues the one before it. -/
inductive Joiner
  | and
  | or
deriving DecidableEq, Repr, Inhabited

/-- **A comparison.** -/
structure Comparison where
  field : String
  op : Opcode
  operands : List Operand
deriving DecidableEq, Repr, Inhabited

/-- **An expression.** A clause is an expression with what joins it to the clause before. -/
inductive Expr
  | compare (c : Comparison)
  | group (clauses : List (Option Joiner × Expr))
  /-- Words without an opcode. -/
  | raw (operands : List Operand)
deriving Repr, Inhabited

/-- A clause: an expression, and what joins it to the clause before it. -/
abbrev Clause := Option Joiner × Expr

/-- One or more decimal digits. -/
def isDecimalDigits (s : List Char) : Bool :=
  !s.isEmpty && s.all Text.isDecimalDigit

/-- **A number's text**: an optional minus, digits, and optionally a point and digits. -/
def isNumber (s : List Char) : Bool :=
  let s := if s.head? = some '-' then s.drop 1 else s
  match Text.cutAt '.' s with
  | some (whole, fraction) => isDecimalDigits whole && isDecimalDigits fraction
  | none => isDecimalDigits s

/-- The first character of a name in a reference. -/
def isNameStart (c : Char) : Bool :=
  c.isAlpha || c == '_' || c == '#'

/-- A later character of a name in a reference. -/
def isNameRest (c : Char) : Bool :=
  c.isAlphanum || c == '_' || c == '#' || c == '-'

/-- A name whose first character satisfies `start`. -/
def isName (start : Char → Bool) : List Char → Bool
  | [] => false
  | c :: rest => start c && rest.all isNameRest

/-- **A reference `table.column`**; the column may be a star. -/
def isColumnRef (s : List Char) : Bool :=
  match Text.cutAt '.' s with
  | some (table, column) =>
    isName isNameStart table && isName (fun c => isNameStart c || c == '*') column
  | none => false

/-- A bare word as an operand. -/
def classify (word : String) : Operand :=
  if isNumber word.toList then .number word
  else if isColumnRef word.toList then .column word
  else .word word

/-- A bare member of a list as an operand. Lists hold values, so it is no reference. -/
def classifyMember (word : String) : Operand :=
  if isNumber word.toList then .number word else .word word

end TableApi.Filter
