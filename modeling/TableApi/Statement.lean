import TableApi.Json.Basic
import TableApi.View.Basic

/-!
# Statements

The SQL of a view: select, existence check, insert, update and delete. Values of written rows never
stand in the text; they are parameters, and the text has a placeholder for each in the same order.
-/

namespace TableApi

/-- **A statement**: its text, and the values of its placeholders. -/
structure Statement where
  sql : String
  params : List Json := []
deriving BEq, Repr, Inhabited

/-- A row: the values of its columns, in order. -/
abbrev Row := Fields

namespace View

/-- The name of the view's table, with its database. -/
def tableSql (v : View) (d : Dialect) : String :=
  d.qualifiedTable v.database v.table

/-- An insert on the view hands back the keys of its rows. -/
def returnsKeys (v : View) (d : Dialect) : Bool :=
  v.primaryKey.isSome && d.returning != .none

/-! ## Reading -/

/-- The cast that an entry needs: that of its column's type, if it shows a known column. -/
def entryCast? (v : View) (d : Dialect) (p : Projection) : Option String :=
  match p.selection with
  | .column _ name => (v.schema.column? name).bind fun c => d.projectionCast c.dataType
  | _ => none

/-- An entry of the select list. A cast column keeps its name. -/
def entrySql (v : View) (d : Dialect) (p : Projection) : String :=
  match p.selection, v.entryCast? d p with
  | .column _ name, some cast =>
    p.body d ++ cast ++ " AS " ++ p.label.getD (d.quoteIdent name)
  | _, _ => p.sql d

/-- Some column of the table has to be cast. -/
def needsCasts (v : View) (d : Dialect) : Bool :=
  v.schema.columns.any fun c => (d.projectionCast c.dataType).isSome

/-- **The select list.** Without entries it is `*`, unless a column has to be cast: then all columns
are listed, or after joins the cast ones follow `*` and stand in for the raw values. -/
def selectList (v : View) (d : Dialect) : String :=
  let entries := v.projection
  if !entries.isEmpty then ", ".intercalate (entries.map (v.entrySql d))
  else if !v.needsCasts d then "*"
  else if v.joins.isEmpty then
    ", ".intercalate (v.schema.columns.map fun c => v.entrySql d (v.columnEntry c))
  else
    let casts := v.schema.columns.filter fun c => (d.projectionCast c.dataType).isSome
    ", ".intercalate ("*" :: casts.map fun c => v.entrySql d (v.columnEntry c))

/-- **The select of a view.** -/
def select (v : View) (d : Dialect) : Statement where
  sql :=
    "SELECT " ++ (if v.distinct then "DISTINCT " else "") ++ v.selectList d
      ++ " FROM " ++ v.tableSql d
      ++ String.join (v.joins.map fun j => " " ++ j.sql)
      ++ v.whereClause?.elim "" (" WHERE " ++ ·)
      ++ (if v.groupBy.isEmpty then "" else " GROUP BY " ++ ", ".intercalate v.groupBy)
      ++ v.having.elim "" (fun h => " HAVING (" ++ h ++ ")")
      ++ v.orderClause?.elim "" (" ORDER BY " ++ ·)
      ++ d.paginate v.offset v.limit v.orderClause?.isSome

/-- The check whether some row meets a condition. -/
def exists_ (v : View) (d : Dialect) (condition : String) : Statement where
  sql :=
    "SELECT 1 AS present FROM " ++ v.tableSql d ++ " WHERE " ++ condition
      ++ d.paginate none (some 1) false

/-! ## Writing -/

/-- The placeholder of the `n`-th parameter for a value of this column. -/
def typedPlaceholder (d : Dialect) (n : Nat) (c : Column) : String :=
  d.placeholder n ++ (d.placeholderCast c.dataType).getD ""

/-- The keys of a row that are columns of the table. -/
def knownKeys (v : View) (row : Row) : List String :=
  row.keys.filter v.schema.hasColumn

/-- The rows of a list that follow each other with the same known columns, as the runs of them. -/
def sameColumnRuns (v : View) : List Row → List (List Row)
  | [] => []
  | row :: rows =>
    match sameColumnRuns v rows with
    | (next :: run) :: runs =>
      if (v.knownKeys row).isPerm (v.knownKeys next) then (row :: next :: run) :: runs
      else [row] :: (next :: run) :: runs
    | runs => [row] :: runs

@[simp] theorem flatten_sameColumnRuns (v : View) (rows : List Row) :
    (v.sameColumnRuns rows).flatten = rows := by
  fun_induction sameColumnRuns v rows with
  | case1 => rfl
  | case2 row rows next run runs hruns hperm ih => simp_all
  | case3 row rows next run runs hruns hperm ih => simp_all
  | case4 row rows hruns ih => simp_all

/-- **The rows that can share one insert.** Where no keyword stands for a default, all rows of an
insert have the same known columns, so that no column left out is written as null. -/
def insertBatches (v : View) (d : Dialect) (rows : List Row) : List (List Row) :=
  if rows.isEmpty then []
  else if d.hasDefaultKeyword then [rows]
  else v.sameColumnRuns rows

/-- The inserts write the rows in their order. -/
@[simp] theorem flatten_insertBatches (v : View) (d : Dialect) (rows : List Row) :
    (v.insertBatches d rows).flatten = rows := by
  unfold insertBatches
  by_cases hrows : rows.isEmpty
  · simp [List.isEmpty_iff.1 hrows]
  · by_cases hd : d.hasDefaultKeyword
    · simp [hrows, hd]
    · simp [hrows, hd]

/-- The columns with those of one more key, if it is a new one. -/
def addKnownColumn (v : View) (columns : List Column) (key : String) : List Column :=
  match v.schema.column? key with
  | some c => if columns.any (·.name = c.name) then columns else columns ++ [c]
  | none => columns

/-- The columns that some row gives a value for, in the order in which the rows name them. -/
def writtenColumns (v : View) (rows : List Row) : List Column :=
  (rows.flatMap Fields.keys).foldl v.addKnownColumn []

/-- The texts and the parameters of a row's values, `n` parameters having come before. -/
def rowValues (d : Dialect) (row : Row) (n : Nat) : List Column → List String × List Json
  | [] => ([], [])
  | c :: columns =>
    match row.get? c.name with
    | some value =>
      let (texts, params) := rowValues d row (n + 1) columns
      (typedPlaceholder d (n + 1) c :: texts, value :: params)
    | none =>
      let (texts, params) := rowValues d row n columns
      (d.missingValue :: texts, params)

/-- The tuples and the parameters of rows, `n` parameters having come before. -/
def tuples (d : Dialect) (columns : List Column) (n : Nat) : List Row → List String × List Json
  | [] => ([], [])
  | row :: rows =>
    let (texts, params) := rowValues d row n columns
    let (more, moreParams) := tuples d columns (n + params.length) rows
    (("(" ++ ", ".intercalate texts ++ ")") :: more, params ++ moreParams)

/-- The clause that hands back keys, where a dialect writes it in this style. -/
def returningClause (v : View) (d : Dialect) (style : Returning) (words : String) : String :=
  match v.primaryKey with
  | some pk => if d.returning = style then words ++ d.quoteIdent pk else ""
  | none => ""

/-- **The insert of rows.** It writes the columns that some row has; a key that is no column of the
table is left out. -/
def insert (v : View) (d : Dialect) (rows : List Row) : Except ApiError Statement :=
  let columns := v.writtenColumns rows
  if columns.isEmpty then .error (.badRequest (.noWritableColumns v.table))
  else
    let (texts, params) := tuples d columns 0 rows
    .ok {
      sql :=
        "INSERT INTO " ++ v.tableSql d ++ " ("
          ++ ", ".intercalate (columns.map fun c => d.quoteIdent c.name) ++ ")"
          ++ v.returningClause d .output " OUTPUT INSERTED."
          ++ " VALUES " ++ ", ".intercalate texts
          ++ v.returningClause d .returning " RETURNING "
      params }

/-- The values of a row that an update writes: those of known columns other than the key. -/
def updatedColumns (v : View) (row : Row) : List (Column × Json) :=
  row.filterMap fun (key, value) =>
    if v.primaryKey = some key then none else (v.schema.column? key).map (·, value)

/-- The assignments of an update, `n` parameters having come before. -/
def assignments (d : Dialect) (n : Nat) : List (Column × Json) → List String
  | [] => []
  | (c, _) :: rest =>
    (d.quoteIdent c.name ++ " = " ++ typedPlaceholder d (n + 1) c) :: assignments d (n + 1) rest

/-- **The update of the rows that meet a condition** to the values of a row. -/
def update (v : View) (d : Dialect) (row : Row) (condition : String) :
    Except ApiError Statement :=
  let values := v.updatedColumns row
  if values.isEmpty then .error (.badRequest (.noUpdatableColumns v.table))
  else
    .ok {
      sql :=
        "UPDATE " ++ v.tableSql d ++ " SET " ++ ", ".intercalate (assignments d 0 values)
          ++ " WHERE " ++ condition
      params := values.map Prod.snd }

/-- **The delete of the rows that meet a condition**, or of all rows. -/
def delete (v : View) (d : Dialect) (condition : Option String) : Statement where
  sql := "DELETE FROM " ++ v.tableSql d ++ condition.elim "" (" WHERE " ++ ·)

end View

end TableApi
