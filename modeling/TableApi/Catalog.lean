import TableApi.Index
import TableApi.Json.Basic

/-!
# Catalogs

What is known of the databases that are served: their tables, and each table's primary key and
columns. A catalog is read once and then only looked up.
-/

namespace TableApi

/-- **A column.** -/
structure Column where
  name : String
  dataType : String
  nullable : Bool := true
  maxLength : Option Int := none
  default : Option String := none
  /-- What else the database says of it, such as `auto_increment`. -/
  extra : String := ""
deriving DecidableEq, Repr, Inhabited

/-- **A table.** -/
structure Table where
  name : String
  comment : String := ""
  primaryKey : Option String
  columns : List Column
deriving DecidableEq, Repr, Inhabited

/-- The column of a name. -/
def Table.column? (t : Table) (name : String) : Option Column :=
  t.columns.find? (·.name = name)

/-- The table has a column of this name. -/
def Table.hasColumn (t : Table) (name : String) : Bool :=
  (t.column? name).isSome

/-- **A catalog**: the tables of each database. -/
structure Catalog where
  databases : Index (Index Table)
deriving Repr, Inhabited

namespace Catalog

/-- No databases. -/
def empty : Catalog := ⟨.empty⟩

/-- The catalog with a database, which has no tables if it is new. -/
def addDatabase (c : Catalog) (database : String) : Catalog :=
  ⟨c.databases.alter database (·.getD .empty)⟩

/-- The catalog with a table under its name; one of the same name is replaced. -/
def insertTable (c : Catalog) (database : String) (t : Table) : Catalog :=
  ⟨c.databases.alter database fun tables => (tables.getD .empty).insert t.name t⟩

/-- The database is known. -/
def isDatabase (c : Catalog) (database : String) : Bool :=
  c.databases.has database

/-- A table of a database. -/
def table? (c : Catalog) (database table : String) : Option Table :=
  (c.databases.get? database).bind (·.get? table)

/-- The table is known. -/
def isTable (c : Catalog) (database table : String) : Bool :=
  (c.table? database table).isSome

/-- The tables of a database in the order of their names. -/
def tables (c : Catalog) (database : String) : List Table :=
  ((c.databases.get? database).map Index.values).getD []

/-- How many tables there are in all databases. -/
def tableCount (c : Catalog) : Nat :=
  c.databases.values.foldl (fun count tables => count + tables.size) 0

/-! ## What a catalog knows -/

@[simp] theorem table?_empty (database name : String) : empty.table? database name = none := rfl

/-- A new table is known under its name; every other one is what it was. -/
@[simp] theorem table?_insertTable (c : Catalog) (database : String) (t : Table)
    (db name : String) :
    (c.insertTable database t).table? db name =
      if db = database ∧ name = t.name then some t else c.table? db name := by
  by_cases hdb : db = database
  · subst hdb
    by_cases hname : name = t.name
    · simp [insertTable, table?, hname]
    · cases h : c.databases.get? db <;> simp [insertTable, table?, hname, h]
  · simp [insertTable, table?, hdb]

@[simp] theorem table?_addDatabase (c : Catalog) (database db name : String) :
    (c.addDatabase database).table? db name = c.table? db name := by
  by_cases hdb : db = database
  · subst hdb
    cases h : c.databases.get? db <;> simp [addDatabase, table?, h]
  · simp [addDatabase, table?, hdb]

/-- A database is known once it was added. -/
@[simp] theorem isDatabase_addDatabase (c : Catalog) (database db : String) :
    (c.addDatabase database).isDatabase db = (db == database || c.isDatabase db) := by
  by_cases hdb : db = database <;> simp [addDatabase, isDatabase, Index.has, hdb]

/-- A database is known once a table of it was added. -/
@[simp] theorem isDatabase_insertTable (c : Catalog) (database : String) (t : Table) (db : String) :
    (c.insertTable database t).isDatabase db = (db == database || c.isDatabase db) := by
  by_cases hdb : db = database <;> simp [insertTable, isDatabase, Index.has, hdb]

end Catalog

/-- A column as JSON; what is unknown or empty is left out. -/
def Column.toJson (c : Column) : Json :=
  .object ([("name", .string c.name), ("nullable", .bool c.nullable),
      ("data_type", .string c.dataType)] ++
    c.maxLength.toList.map (fun n => ("max_length", .number (.int n))) ++
    c.default.toList.map (fun d => ("default_value", .string d)) ++
    if c.extra = "" then [] else [("extra", .string c.extra)])

/-- A table as JSON. -/
def Table.toJson (t : Table) : Json :=
  .object [("name", .string t.name), ("comment", .string t.comment),
    ("primary_key", Json.ofOption t.primaryKey), ("columns", .array (t.columns.map Column.toJson))]

/-- A catalog as JSON: databases and tables by name. -/
def Catalog.toJson (c : Catalog) : Json :=
  .object (c.databases.entries.map fun (database, tables) =>
    (database, .object (tables.entries.map fun (name, t) => (name, t.toJson))))

end TableApi
