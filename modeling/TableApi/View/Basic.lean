import TableApi.Filter.Render
import TableApi.Relation.Link
import TableApi.Text.Count
import TableApi.Text.Split
import TableApi.View.Projection

/-!
# Views

A view is one table as a request addresses it: which rows, which columns, in which order, joined
with what. It is built by setters that read the texts of parameters. A setter that refuses its text
leaves the view as it was.
-/

namespace TableApi

/-- **How a table came into the request.** -/
inductive Role
  /-- The first table of the path. -/
  | primary
  /-- A later table of the path. -/
  | foreign
  /-- A table that a parameter includes. -/
  | included
deriving DecidableEq, Repr, Inhabited

/-- The role's name. -/
def Role.name : Role → String
  | .primary => "primary"
  | .foreign => "foreign"
  | .included => "include"

/-- The kinds of join. -/
inductive JoinKind
  | inner
  | left
  | leftOuter
  | right
  | rightOuter
  | fullOuter
  | cross
deriving DecidableEq, Repr, Inhabited

/-- The kind of a word in any case. -/
def JoinKind.ofWord? (word : String) : Option JoinKind :=
  match Text.lowered word with
  | "inner" => some .inner
  | "left" => some .left
  | "leftouter" => some .leftOuter
  | "right" => some .right
  | "rightouter" => some .rightOuter
  | "outer" | "fullouter" => some .fullOuter
  | "cross" => some .cross
  | _ => none

/-- The keywords of a kind. -/
def JoinKind.keywords : JoinKind → String
  | .inner => "INNER JOIN"
  | .left => "LEFT JOIN"
  | .leftOuter => "LEFT OUTER JOIN"
  | .right => "RIGHT JOIN"
  | .rightOuter => "RIGHT OUTER JOIN"
  | .fullOuter => "FULL OUTER JOIN"
  | .cross => "CROSS JOIN"

/-- **A join.** -/
structure Join where
  kind : JoinKind
  table : String
  condition : Option String
deriving DecidableEq, Repr, Inhabited

/-- A join in SQL. -/
def Join.sql (j : Join) : String :=
  j.kind.keywords ++ " " ++ j.table ++ j.condition.elim "" fun c => " ON (" ++ c ++ ")"

/-- One field that rows are ordered by. -/
structure OrderTerm where
  field : String
  descending : Bool
deriving DecidableEq, Repr, Inhabited

/-- An order term in SQL. -/
def OrderTerm.sql (t : OrderTerm) : String :=
  t.field ++ if t.descending then " DESC" else " ASC"

/-- **A view.** -/
structure View where
  database : String
  schema : Table
  role : Role
  /-- The condition that picks the rows of `ids`. -/
  idFilter : Option String := none
  /-- The keys of the rows that the path addresses. -/
  ids : List String := []
  /-- Conditions of the request, in order. -/
  filters : List String := []
  columns : List Projection := []
  /-- Names of columns that are left out. -/
  exclude : List String := []
  joins : List Join := []
  groupBy : List String := []
  having : Option String := none
  orderBy : List OrderTerm := []
  offset : Option Nat := none
  limit : Option Nat := none
  distinct : Bool := false
  /-- The links of the request that touch the table. -/
  relations : List Link := []
deriving DecidableEq, Repr, Inhabited

namespace View

/-- The view's table. -/
def table (v : View) : String := v.schema.name

/-- The primary key of the view's table. -/
def primaryKey (v : View) : Option String := v.schema.primaryKey

/-- The text, unless it is empty. -/
def nonempty? (s : String) : Option String :=
  if s.isEmpty then none else some s

/-! ## Which rows -/

/-- The view of the rows with these keys. Without a primary key, or without ids, it stays as it
is. -/
def setIds (v : View) (d : Dialect) (ids : List String) : Except ApiError View :=
  match v.primaryKey with
  | none => pure v
  | some pk =>
    if ids.isEmpty then pure v
    else
      match Filter.equality d v.table pk ids with
      | .ok sql => pure { v with idFilter := some sql, ids := ids }
      | .error e => .error (.filter e)

/-- The view with one more condition; an empty text is none. -/
def pushFilter (v : View) (sql : String) : View :=
  if sql.isEmpty then v else { v with filters := v.filters ++ [sql] }

/-- The view with the condition that a filter writes. -/
def addFilter (v : View) (d : Dialect) (text : String) : Except ApiError View :=
  match Filter.compile d text with
  | .ok sql => pure (v.pushFilter sql)
  | .error e => .error (.filter e)

/-- The conditions, the one on keys first. -/
def conditions (v : View) : List String :=
  (v.idFilter.toList ++ v.filters).filter (!·.isEmpty)

/-- Several conditions as one: each in parentheses, joined by `AND`. -/
def conjunction? (parts : List String) : Option String :=
  if parts.isEmpty then none else some ("(" ++ ") AND (".intercalate parts ++ ")")

/-- **The condition of a view**, if it has any. -/
def whereClause? (v : View) : Option String :=
  conjunction? v.conditions

/-! ## Which columns -/

/-- The view with the entries of a `columns` text. -/
def addColumns (v : View) (text : String) : View :=
  { v with columns := v.columns ++ (Text.entries text).filterMap (Projection.parse? v.schema) }

/-- The view without the columns that an `exclude` text names. -/
def addExclude (v : View) (text : String) : View :=
  { v with
    exclude := v.exclude ++
      ((Text.entries text).map (Text.sanitized ".")).filter (!·.isEmpty) }

/-- An excluded name means this column: it is the name, or the table's name and the name. -/
def excludes (v : View) (name entry : String) : Bool :=
  entry == name ||
    match Text.cutLast '.' entry.toList with
    | some (table, column) => String.ofList table == v.table && String.ofList column == name
    | none => false

/-- The entry shows an excluded column. -/
def isExcluded (v : View) (p : Projection) : Bool :=
  match p.columnName? with
  | some name => v.exclude.any (v.excludes name)
  | none => false

/-- A column of the view's table as an entry. -/
def columnEntry (v : View) (c : Column) : Projection :=
  ⟨.column v.table c.name, none⟩

/-- **The entries of the select list**: those asked for, or every column where something is
excluded, without the excluded ones. No entries stand for `*`. -/
def projection (v : View) : List Projection :=
  let base :=
    if !v.columns.isEmpty then v.columns
    else if !v.exclude.isEmpty then v.schema.columns.map v.columnEntry
    else []
  base.filter (!v.isExcluded ·)

/-! ## In which order, and how many -/

/-- The terms, last first, with the direction of the last one changed. -/
def redirectLast (descending : Bool) : List OrderTerm → List OrderTerm
  | [] => []
  | t :: rest => { t with descending } :: rest

/-- One token of an order text, the terms so far being held last first with the direction that the
next one takes. -/
def orderStep (state : Bool × List OrderTerm) (token : String) : Bool × List OrderTerm :=
  let word := Text.lowered token
  if word = "asc" ∨ word = "desc" then
    let descending := Text.sameLetters token "desc"
    (descending, redirectLast descending state.2)
  else
    let field := Text.sanitized ".*()-" token
    if field.isEmpty then state else (state.1, ⟨field, state.1⟩ :: state.2)

/-- The view ordered by the fields of an `order` text too. A direction belongs to the field before
it, and fields without one take the direction of the field before them. -/
def addOrder (v : View) (text : String) : View :=
  let terms := v.orderBy.reverse
  let direction := (terms.head?.map OrderTerm.descending).getD false
  { v with orderBy := ((Text.entries text).foldl orderStep (direction, terms)).2.reverse }

/-- The order of a view, if it has one. -/
def orderClause? (v : View) : Option String :=
  if v.orderBy.isEmpty then none else some (", ".intercalate (v.orderBy.map OrderTerm.sql))

/-- The view of one page of so many rows. A product beyond the greatest count is that count. -/
def onPage (v : View) (page size : Nat) : View :=
  { v with limit := some size, offset := some (min (page * size) Text.maxCount) }

/-- The view of the page that a `page` or `page,size` text asks for. -/
def setPage (v : View) (text : String) (defaultSize : Nat) : View :=
  let cleaned := text.toList.filter fun c => c.isDigit || c == ','
  match Text.cutAt ',' cleaned with
  | some (page, size) =>
    match Text.count? page, Text.count? (size.filter Char.isDigit) with
    | some page, some size => v.onPage page size
    | _, _ => v
  | none =>
    match Text.count? cleaned with
    | some page => v.onPage page defaultSize
    | none => v

/-- The view from the row that a `start` text counts. -/
def setStart (v : View) (text : String) : View :=
  match Text.looseCount? text with
  | some n => { v with offset := some n }
  | none => v

/-- The view of as many rows as a `length` text counts. -/
def setLength (v : View) (text : String) : View :=
  match Text.looseCount? text with
  | some n => { v with limit := some n }
  | none => v

/-! ## Joins and groups -/

/-- A text with its double quotes made single. -/
def singleQuotes (text : String) : String :=
  String.ofList (text.toList.map fun c => if c = '"' then '\'' else c)

/-- The kind that a join text starts with, and its other entries. Without one it is inner. -/
def joinParts (entries : List String) : JoinKind × List String :=
  match entries with
  | first :: rest =>
    match JoinKind.ofWord? first with
    | some kind => (kind, rest)
    | none => (.inner, entries)
  | [] => (.inner, [])

/-- The condition of a join, given the entries after its table. -/
def joinCondition (d : Dialect) (entries : List String) : Except ApiError (Option String) :=
  if entries.isEmpty then pure none
  else
    match Filter.compileCondition d (",".intercalate entries) with
    | .ok sql => pure (nonempty? sql)
    | .error e => .error (.filter e)

/-- The view joined as a `kind,table,condition` text says. -/
def addJoin (v : View) (d : Dialect) (text : String) : Except ApiError View := do
  let text := singleQuotes text
  let (kind, entries) := joinParts (Text.entries text)
  match entries with
  | [] => .error (.badRequest (.joinWithoutTable text))
  | first :: rest =>
    let table := Text.sanitized ".-" first
    if table.isEmpty then .error (.badRequest (.joinWithoutTable text))
    else
      let condition ← joinCondition d rest
      pure { v with joins := v.joins ++ [⟨kind, table, condition⟩] }

/-- The view grouped by the fields of a `group` text too. -/
def addGroup (v : View) (text : String) : View :=
  { v with
    groupBy := v.groupBy ++
      ((Text.entries text).map (Text.sanitized ".*()-")).filter (!·.isEmpty) }

/-- The view with the condition on groups that a filter writes. -/
def setHaving (v : View) (d : Dialect) (text : String) : Except ApiError View :=
  match Filter.compile d (singleQuotes text) with
  | .ok sql => pure { v with having := nonempty? sql }
  | .error e => .error (.filter e)

end View

end TableApi
