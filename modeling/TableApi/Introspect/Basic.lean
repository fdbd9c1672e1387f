import TableApi.Introspect.Lookup
import TableApi.Json.Printer
import TableApi.Session
import TableApi.Text.Count

/-!
# Reading a catalog

A catalog is built from what a database tells about itself. For each database its tables are
listed, and for each table its key and its columns are asked for. Answers name their columns in
whatever case the dialect likes; a row without a name is passed over.
-/

namespace TableApi.Introspect

/-- The first value under a name in any case of its ASCII letters, unless it is null. -/
def field? (row : Row) (name : String) : Option Json :=
  match row.find? fun f => Text.sameLetters f.1 name with
  | some (_, .null) => none
  | some (_, value) => some value
  | none => none

/-- A value as text. -/
def text? (row : Row) (name : String) : Option String :=
  (field? row name).map fun
    | .string s => s
    | other => other.compact

/-- An integer, if it fits a signed word. -/
def signed? (n : Int) : Option Int :=
  if Number.isSigned n then some n else none

/-- A value as a signed integer. -/
def integer? (row : Row) (name : String) : Option Int :=
  match field? row name with
  | some (.number (.int n)) => signed? n
  | some (.string s) => (Text.integer? (Text.trim s.toList)).bind signed?
  | _ => none

/-- The column that a row describes. -/
def column? (row : Row) : Option Column :=
  (text? row "column_name").map fun name => {
    name
    nullable := ((text? row "is_nullable").map (Text.sameLetters · "yes")).getD true
    dataType := (text? row "data_type").getD ""
    maxLength := integer? row "character_maximum_length"
    default := text? row "column_default"
    extra := (text? row "extra").getD "" }

/-- The name and the comment of the table that a row describes. -/
def tableName? (row : Row) : Option (String × String) :=
  (text? row "table_name").map fun name => (name, (text? row "table_comment").getD "")

/-- What fills a placeholder. -/
def fill (database table : String) : Bind → Json
  | .database => .string database
  | .table => .string table

/-- The answer to a question about a database and a table. -/
def ask (q : Lookup) (database table : String) : Work (List Row) :=
  Work.fetch ⟨q.sql, q.binds.map (fill database table)⟩

/-- One table: its key is the first column that the database names for it. -/
def readTable (d : Dialect) (database name comment : String) : Work Table := do
  let keys ← ask d.reflectKey database name
  let columns ← ask d.reflectColumns database name
  pure {
    name
    comment
    primaryKey := keys.head?.bind (text? · "column_name")
    columns := columns.filterMap column? }

/-- A catalog with one more database read into it. -/
def readDatabase (d : Dialect) (c : Catalog) (database : String) : Work Catalog := do
  let tables ← ask d.listTables database ""
  (tables.filterMap tableName?).foldlM
    (fun (c : Catalog) (name, comment) => do
      let t ← readTable d database name comment
      pure (c.insertTable database t))
    (c.addDatabase database)

/-- **The catalog of these databases.** -/
def readCatalog (d : Dialect) (databases : List String) : Work Catalog :=
  databases.foldlM (readDatabase d) .empty

end TableApi.Introspect
