import TableApi.Catalog
import TableApi.Dialect
import TableApi.Text.Cut
import TableApi.Text.Sanitize

/-!
# Selected columns

One entry of a `columns` parameter: a column of the table, a call of an aggregate function, or any
other text of safe characters, each with an optional `@name`.
-/

namespace TableApi

/-- An aggregate function. -/
inductive Aggregate
  | avg
  | count
  | min
  | max
  | sum
deriving DecidableEq, Repr, Inhabited

/-- The function's name. -/
def Aggregate.name : Aggregate → String
  | .avg => "avg"
  | .count => "count"
  | .min => "min"
  | .max => "max"
  | .sum => "sum"

/-- The function of a name in any case. -/
def Aggregate.ofName? (name : String) : Option Aggregate :=
  [.avg, .count, .min, .max, .sum].find? fun (f : Aggregate) => f.name == Text.lowered name

/-- What an entry selects. -/
inductive Selection
  /-- A column of the table, written with the table's name. -/
  | column (table name : String)
  /-- A call of an aggregate function. -/
  | aggregate (f : Aggregate) (args : String)
  /-- Any other text, written as it is. -/
  | expr (text : String)
deriving DecidableEq, Repr, Inhabited

/-- **An entry of a select list.** -/
structure Projection where
  selection : Selection
  label : Option String
deriving DecidableEq, Repr, Inhabited

namespace Projection

/-- The label that follows a call: none where nothing follows, otherwise `@` and a name. -/
def callLabel? : List Char → Option (Option String)
  | [] => some none
  | c :: rest =>
    if c = '@' ∧ !rest.isEmpty ∧ rest.all Text.isNameChar then some (some (String.ofList rest))
    else none

/-- The text `name(args)` with an optional `@name`, taken apart. The arguments reach to the last
closing parenthesis. -/
def call? (s : List Char) : Option (String × String × Option String) := do
  let (name, rest) ← Text.cutAt '(' s
  if !name.all Text.isNameChar then none
  else
    let (args, rest) ← Text.cutLast ')' rest
    let label ← callLabel? rest
    pure (String.ofList name, String.ofList args, label)

/-- A text that is no call: a name with an optional `@name`. -/
def ofName (t : Table) (s : List Char) : Projection :=
  let (name, label) :=
    match Text.cutAt '@' s with
    | some (name, a) =>
      let a := String.ofList (Text.sanitize "" a)
      (String.ofList name, if a = "" then none else some a)
    | none => (String.ofList s, none)
  ⟨if t.hasColumn name then .column t.name name else .expr name, label⟩

/-- **The entry that a text writes**, unless nothing of the text is kept. -/
def parse? (t : Table) (text : String) : Option Projection :=
  let s := Text.sanitize ".*(),@" text.toList
  if s.isEmpty then none
  else
    match call? s with
    | some (name, args, label) =>
      match Aggregate.ofName? name with
      | some f => some ⟨.aggregate f args, label⟩
      | none => some ⟨.expr (name ++ "(" ++ args ++ ")"), label⟩
    | none => some (ofName t s)

/-- The text after the last point. -/
def afterLastPoint (s : String) : String :=
  match Text.cutLast '.' s.toList with
  | some (_, after) => String.ofList after
  | none => s

/-- The name of the column that an entry shows, as far as its text tells. -/
def columnName? (p : Projection) : Option String :=
  match p.selection with
  | .column _ name => some name
  | .expr text => some (afterLastPoint text)
  | .aggregate _ _ => none

/-- The name of the value in a result row, as far as the entry tells. -/
def outputName? (p : Projection) : Option String :=
  match p.label, p.selection with
  | some a, _ => some a
  | none, .column _ name => some name
  | none, _ => none

/-- An entry without its label. -/
def body (d : Dialect) (p : Projection) : String :=
  match p.selection with
  | .column table name => d.quoteIdent table ++ "." ++ d.quoteIdent name
  | .aggregate f args => f.name ++ "(" ++ args ++ ")"
  | .expr text => text

/-- **An entry in SQL.** -/
def sql (d : Dialect) (p : Projection) : String :=
  match p.label with
  | some a => p.body d ++ " AS " ++ a
  | none => p.body d

end Projection

end TableApi
