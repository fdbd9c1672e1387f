import TableApi.Relation.Merge
import TableApi.Request

/-!
# Scopes

The conditions that keep a command to the rows that it was asked for: those of a view, the key of a
body's row, and for a child table the keys of the parent rows that the path addresses.
-/

namespace TableApi.Command

/-- The condition on columns as a failure of the request. -/
def equality (d : Dialect) (table column : String) (values : List String) :
    Except ApiError String :=
  (Filter.equality d table column values).mapError .filter

/-- The condition that picks the row which has this row's primary key, if it gives one. -/
def keyFilter (d : Dialect) (v : View) (row : Row) : Except ApiError (Option String) :=
  match v.primaryKey with
  | none => .ok none
  | some pk =>
    match Relation.rowKey? row pk with
    | some value => (equality d v.table pk [value]).map some
    | none => .ok none

/-- The scope of one row of several: its own key and the conditions of the request. The ids of the
path do not narrow it. -/
def elementScope (d : Dialect) (v : View) (row : Row) : Except ApiError (Option String) := do
  match ← keyFilter d v row with
  | none => pure none
  | some key => pure (View.conjunction? (key :: v.filters))

/-- The scope of a single row: the view's own, or else the row's key. -/
def rowScope (d : Dialect) (v : View) (row : Row) : Except ApiError (Option String) :=
  match v.whereClause? with
  | some w => .ok (some w)
  | none => (keyFilter d v row).map (·.map fun k => "(" ++ k ++ ")")

/-- The link makes the view a child of another table of the request. -/
def isChildLink (v : View) (l : Link) : Bool :=
  l.childTable == v.table && l.parentTable != v.table

/-- The condition that one link puts on its child: the reference is one of the ids by which the
parent's rows are addressed. -/
def linkScope (d : Dialect) (r : Request) (v : View) (l : Link) :
    Except ApiError (Option String) :=
  match r.view? l.parentTable with
  | none => .ok none
  | some parent =>
    if parent.ids.isEmpty || parent.primaryKey != some l.parentColumn then .ok none
    else (equality d v.table l.childColumn parent.ids).map some

/-- **The conditions that links put on a view**, one for each link that makes it the child of a view
addressed by id. -/
def relationScope (d : Dialect) (r : Request) (v : View) : Except ApiError (List String) := do
  let scopes ← (r.relations.filter (isChildLink v)).mapM (linkScope d r v)
  pure (scopes.filterMap id)

end TableApi.Command
