import TableApi.Text.Blank
import TableApi.Text.Case

/-!
# SQL dialects

The databases whose SQL can be written, and where they differ: identifier quotes, placeholders,
casts, paging, and how an insert hands back generated keys. Everything else about a statement is
the same for all of them.
-/

namespace TableApi

/-- **A dialect of SQL.** -/
inductive Dialect
  | postgres
  | mysql
  | mssql
  | sqlite
  | oracle
deriving DecidableEq, Repr, Inhabited

/-- How an insert hands back the generated primary keys. -/
inductive Returning
  /-- `INSERT … RETURNING key`. -/
  | returning
  /-- `INSERT … OUTPUT INSERTED.key VALUES …`. -/
  | output
  /-- Not at all; the database reports how many rows were inserted. -/
  | none
deriving DecidableEq, Repr, Inhabited

namespace Dialect

/-- The dialect's name. -/
def name : Dialect → String
  | .postgres => "postgres"
  | .mysql => "mysql"
  | .mssql => "mssql"
  | .sqlite => "sqlite"
  | .oracle => "oracle"

/-- The dialect of a name or of one of its other spellings, in any case, with blanks around it. -/
def ofWord? (word : String) : Option Dialect :=
  match Text.lowered (Text.trimmed word) with
  | "postgres" | "postgresql" | "pg" => some .postgres
  | "mysql" | "mariadb" | "mariasql" => some .mysql
  | "mssql" => some .mssql
  | "sqlite" | "sqlite3" => some .sqlite
  | "oracle" | "oracledb" => some .oracle
  | _ => Option.none

/-- The dialect can write filters; every dialect but one does. -/
def supportsFilters : Dialect → Bool
  | .oracle => false
  | _ => true

/-- The quote around a text value. -/
def valueQuote (_ : Dialect) : Char := '\''

/-- What follows a `LIKE` pattern so that its backslashes escape. -/
def likeEscape : Dialect → String
  | .postgres | .mysql => ""
  | .mssql | .sqlite | .oracle => " ESCAPE '\\'"

/-- The characters that open and close a quoted identifier. -/
def identQuotes : Dialect → Char × Char
  | .mysql => ('\x60', '\x60')
  | .mssql => ('[', ']')
  | .postgres | .sqlite | .oracle => ('"', '"')

/-- A text with every `close` doubled. -/
def doubleQuotes (close : Char) (s : List Char) : List Char :=
  s.flatMap fun c => if c = close then [close, close] else [c]

/-- **A quoted identifier.** A closing quote inside the name is doubled. -/
def quoteIdent (d : Dialect) (name : String) : String :=
  let (open_, close) := d.identQuotes
  String.ofList (open_ :: (doubleQuotes close name.toList ++ [close]))

/-- A table's quoted name, after its database's unless that is empty. -/
def qualifiedTable (d : Dialect) (database table : String) : String :=
  if database.isEmpty then d.quoteIdent table
  else d.quoteIdent database ++ "." ++ d.quoteIdent table

/-- The placeholder of the `n`-th parameter, counted from one. -/
def placeholder (d : Dialect) (n : Nat) : String :=
  match d with
  | .postgres => "$" ++ toString n
  | .mysql | .sqlite => "?"
  | .mssql => "@P" ++ toString n
  | .oracle => ":" ++ toString n

/-- What follows a written placeholder so that it takes its column's type. -/
def placeholderCast (d : Dialect) (dataType : String) : Option String :=
  if d = .postgres then
    let ty := Text.lowered (Text.trimmed dataType)
    if ty = "" ∨ ty = "user-defined" ∨ ty = "array" then Option.none else some ("::" ++ ty)
  else Option.none

/-- What follows a selected column whose type has no plain reading, so that it is read as text. -/
def projectionCast (d : Dialect) (dataType : String) : Option String :=
  if d = .postgres ∧
      ["numeric", "decimal", "money", "user-defined"].contains
        (Text.lowered (Text.trimmed dataType)) then
    some "::text"
  else Option.none

/-- How an insert hands back its keys. -/
def returning : Dialect → Returning
  | .postgres | .sqlite => .returning
  | .mssql => .output
  | .mysql | .oracle => .none

/-- A keyword can stand for the default of a column that a row leaves out. -/
def hasDefaultKeyword : Dialect → Bool
  | .sqlite => false
  | _ => true

/-- What stands for a column that one row of several leaves out. -/
def missingValue (d : Dialect) : String :=
  if d.hasDefaultKeyword then "DEFAULT" else "NULL"

/-- The limit that a dialect writes when there is an offset and no limit. -/
def unboundedLimit : Dialect → String
  | .mysql => "18446744073709551615"
  | _ => "-1"

/-- **Paging.** What follows a query so that it skips `offset` rows and returns at most `limit`. Two
dialects page ordered queries only, so they order by nothing if the query is not `ordered`. -/
def paginate (d : Dialect) (offset limit : Option Nat) (ordered : Bool) : String :=
  if offset.isNone ∧ limit.isNone then ""
  else
    match d with
    | .postgres =>
      offset.elim "" (fun o => " OFFSET " ++ toString o) ++
        limit.elim "" (fun l => " LIMIT " ++ toString l)
    | .mysql | .sqlite =>
      " LIMIT " ++ limit.elim d.unboundedLimit toString ++
        offset.elim "" (fun o => " OFFSET " ++ toString o)
    | .mssql | .oracle =>
      (if ordered then "" else " ORDER BY (SELECT NULL)") ++
        " OFFSET " ++ toString (offset.getD 0) ++ " ROWS" ++
        limit.elim "" (fun l => " FETCH NEXT " ++ toString l ++ " ROWS ONLY")

example : quoteIdent .mssql "a]b" = "[a]]b]" := by decide
example : paginate .sqlite (some 5) none false = " LIMIT -1 OFFSET 5" := by decide

end Dialect

end TableApi
