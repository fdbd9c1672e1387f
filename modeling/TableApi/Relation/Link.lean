import TableApi.Error
import TableApi.Text.Cut
import TableApi.Text.Sanitize

/-!
# Links between tables

A link says that a column of a child table holds the key of rows of a parent table. A request
writes it `parent.column,child.column`.
-/

namespace TableApi

/-- **A link.** `childTable.childColumn` refers to `parentTable.parentColumn`. -/
structure Link where
  parentTable : String
  parentColumn : String
  childTable : String
  childColumn : String
deriving DecidableEq, Repr, Inhabited

namespace Link

/-- One end of a link: what stands before and after the last point, sanitized, both nonempty. -/
def endpoint? (s : List Char) : Option (String × String) :=
  match Text.cutLast '.' (Text.trim s) with
  | some (table, column) =>
    let table := String.ofList (Text.sanitize "-" table)
    let column := String.ofList (Text.sanitize "-" column)
    if table = "" ∨ column = "" then none else some (table, column)
  | none => none

/-- The link that a text writes, if it has the form of one. -/
def ofText? (text : String) : Option Link := do
  let (left, right) ← Text.cutAt ',' text.toList
  let (parentTable, parentColumn) ← endpoint? left
  let (childTable, childColumn) ← endpoint? right
  pure ⟨parentTable, parentColumn, childTable, childColumn⟩

/-- **The link that a text writes**, or a refusal that quotes the text. -/
def parse (text : String) : Except ApiError Link :=
  match ofText? text with
  | some link => .ok link
  | none => .error (.badRequest (.malformedLink text))

/-- The table is one of the link's two. -/
def touches (l : Link) (table : String) : Bool :=
  l.parentTable == table || l.childTable == table

end Link

end TableApi
