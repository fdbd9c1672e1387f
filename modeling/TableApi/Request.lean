import TableApi.Model
import TableApi.Settings.Basic
import TableApi.View.Basic

/-!
# Requests

What the path and the query string of a request address. A path is `/database/table/ids/table/…`,
where the database may be left out; the query string adds to the views of those tables and links
them. Segments and parameters that mean nothing are passed over.
-/

namespace TableApi

/-- **A request for tables.** The first view is the primary one. -/
structure Request where
  database : String
  views : List View
  relations : List Link
  /-- Parameters that mean nothing to this request. -/
  passthrough : List Param
deriving Repr, Inhabited

/-- What a request addresses: a model or tables. -/
inductive Target
  | model (call : ModelCall)
  | views (request : Request)

/-- What a request is read with. -/
structure Context where
  catalog : Catalog
  settings : Settings
  models : Models

namespace Request

/-- The view of a table. -/
def view? (r : Request) (table : String) : Option View :=
  r.views.find? (·.table = table)

/-- The primary view. -/
def primary (r : Request) : View :=
  r.views.headD default

/-! ## The path -/

/-- The segments of a path, decoded and trimmed, without the empty ones. -/
def segments (path : String) : List String :=
  ((Query.piecesBetween '/' path.toList).map fun s =>
    String.ofList (Text.trim (Text.Percent.decode s))).filter (!·.isEmpty)

/-- The ids of a segment that is no table. -/
def idsOf (segment : String) : List String :=
  (((Query.piecesBetween ',' segment.toList).map Text.trim).filter (!·.isEmpty)).map String.ofList

/-- The database that a path addresses, and the segments after its name. A table of the main
database wins over a database of the same name. -/
def chooseDatabase (ctx : Context) (segments : List String) : String × List String :=
  let main := ctx.settings.mainDb
  match segments with
  | first :: rest =>
    if !ctx.catalog.isTable main first && ctx.catalog.isDatabase first
        && ctx.settings.databases.contains first then
      (first, rest)
    else (main, segments)
  | [] => (main, [])

/-- The views with the one at an index changed. -/
def changeView (views : List View) (i : Nat) (f : View → Except ApiError View) :
    Except ApiError (List View) :=
  match views[i]? with
  | some v => (f v).map (views.set i)
  | none => .ok views

/-- The views of a path read so far, and the index of the table that was named last. -/
structure PathState where
  views : List View := []
  current : Option Nat := none

/-- One segment of a path: a table, or ids of the table before it. -/
def pathStep (ctx : Context) (database : String) (s : PathState) (segment : String) :
    Except ApiError PathState :=
  match ctx.catalog.table? database segment with
  | some schema =>
    match s.views.findIdx? (·.table = segment) with
    | some i => .ok { s with current := some i }
    | none =>
      let role := if s.views.isEmpty then .primary else .foreign
      .ok ⟨s.views ++ [{ database, schema, role }], some s.views.length⟩
  | none =>
    match s.current with
    | some i =>
      (changeView s.views i (·.setIds ctx.settings.dialect (idsOf segment))).map fun views =>
        { s with views }
    | none => .ok s

/-- **The views of a path.** A path that names no table fails with its last segment. -/
def pathViews (ctx : Context) (database : String) (segments : List String) :
    Except ApiError (List View) := do
  let s ← segments.foldlM (pathStep ctx database) {}
  if s.views.isEmpty then .error (.noTable (segments.getLast?.getD "resource"))
  else pure s.views

/-! ## The query string -/

/-- The order in which parameters take effect. -/
def rank (key : String) : Nat :=
  match key with
  | "include" => 0
  | "distinct" => 1
  | "filter" | "where" => 2
  | "columns" => 3
  | "exclude" => 4
  | "order" => 5
  | "page" => 6
  | "start" => 7
  | "length" => 8
  | "join" => 9
  | "group" => 10
  | "having" => 11
  | "relation" => 12
  | _ => 13

/-- The parameters in the order in which they take effect; those of one rank keep their order. -/
def ranked (params : List Param) : List Param :=
  params.mergeSort fun p q => rank p.key ≤ rank q.key

/-- Ranking loses and repeats no parameter. -/
theorem ranked_perm (params : List Param) : (ranked params).Perm params :=
  List.mergeSort_perm _ _

/-- Ranked parameters take effect in the order of their ranks. -/
theorem ranked_pairwise (params : List Param) :
    (ranked params).Pairwise fun p q => rank p.key ≤ rank q.key := by
  refine (List.pairwise_mergeSort ?_ ?_ params).imp fun h => by simpa using h
  · intro p q r; simpa using Nat.le_trans
  · intro p q; simpa using Nat.le_total _ _

/-- The views with one more table, unless it is there already. -/
def includeTable (ctx : Context) (database : String) (views : List View) (entry : String) :
    Except ApiError (List View) :=
  let name := Text.sanitized "-" entry
  if name.isEmpty || views.any (·.table = name) then .ok views
  else
    match ctx.catalog.table? database name with
    | some schema => .ok (views ++ [{ database, schema, role := .included }])
    | none => .error (.noTable name)

/-- The end of a link is a column of a view. -/
def checkEndpoint (views : List View) (table column : String) : Except ApiError Unit :=
  match views.find? (·.table = table) with
  | none => .error (.badRequest (.foreignEndpoint table))
  | some v =>
    if v.schema.hasColumn column then .ok () else .error (.badRequest (.unknownColumn table column))

/-- The link that a `relation` text writes between two of the views. -/
def linkOf (views : List View) (text : String) : Except ApiError Link := do
  let link ← Link.parse text
  checkEndpoint views link.parentTable link.parentColumn
  checkEndpoint views link.childTable link.childColumn
  pure link

/-- The request with one more link, which its two views get to know. -/
def addLink (r : Request) (link : Link) : Request :=
  { r with
    relations := r.relations ++ [link]
    views := r.views.map fun v =>
      if link.touches v.table then { v with relations := v.relations ++ [link] } else v }

/-- A view with one parameter taken in. -/
def applyParam (settings : Settings) (p : Param) (v : View) : Except ApiError View :=
  match p.key with
  | "distinct" => .ok { v with distinct := Text.truthy p.value }
  | "filter" | "where" => v.addFilter settings.dialect p.value
  | "columns" => .ok (v.addColumns p.value)
  | "exclude" => .ok (v.addExclude p.value)
  | "order" => .ok (v.addOrder p.value)
  | "page" => .ok (v.setPage p.value settings.pageSize)
  | "start" => .ok (v.setStart p.value)
  | "length" => .ok (v.setLength p.value)
  | "join" => v.addJoin settings.dialect p.value
  | "group" => .ok (v.addGroup p.value)
  | "having" => v.setHaving settings.dialect p.value
  | _ => .ok v

/-- The index of the view that a parameter is meant for: its target's, or the first. -/
def targetIndex (views : List View) (p : Param) : Except ApiError Nat :=
  match p.target with
  | none => .ok 0
  | some table =>
    match views.findIdx? (·.table = table) with
    | some i => .ok i
    | none => .error (.noTable table)

/-- The request with one parameter taken in, of the keys that it knows. -/
def paramStep (ctx : Context) (keys : List String) (r : Request) (p : Param) :
    Except ApiError Request :=
  if !keys.contains p.key then .ok { r with passthrough := r.passthrough ++ [p] }
  else if p.key = "include" then do
    let views ← (Text.entries p.value).foldlM (includeTable ctx r.database) r.views
    pure { r with views }
  else if p.key = "relation" then do
    let link ← linkOf r.views p.value
    pure (r.addLink link)
  else do
    let i ← targetIndex r.views p
    let views ← changeView r.views i (applyParam ctx.settings p)
    pure { r with views }

/-- The keys that a request knows. -/
def knownKeys (write : Bool) : List String :=
  if write then Query.writeKeys else Query.readKeys

/-- The request for tables that segments and parameters write. -/
def ofParts (ctx : Context) (segments : List String) (params : List Param) (write : Bool) :
    Except ApiError Request := do
  let (database, rest) := chooseDatabase ctx segments
  let views ← pathViews ctx database rest
  (ranked params).foldlM (paramStep ctx (knownKeys write)) ⟨database, views, [], []⟩

/-- The model that a path names first, and the segments after it. -/
def modelOf? (ctx : Context) (segments : List String) : Option (String × Model × List String) :=
  match segments with
  | first :: rest => (ctx.models.get? first).map (first, ·, rest)
  | [] => none

/-- **What a request addresses.** -/
def parse (ctx : Context) (method path query : String) (write : Bool) : Except ApiError Target :=
  let segments := segments path
  let params := Query.parse query
  match modelOf? ctx segments with
  | some (name, m, rest) =>
    let (function, args) := m.resolve rest
    .ok (.model ⟨name, function, method, args, params, none⟩)
  | none => (ofParts ctx segments params write).map .views

end Request

end TableApi
