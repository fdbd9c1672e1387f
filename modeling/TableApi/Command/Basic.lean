import TableApi.Command.Scope
import TableApi.Payload
import TableApi.Session

/-!
# Commands

What the verbs do with a request's views: read and nest rows, insert with children, update, update
or insert, and delete. Everything but a read and an update runs in a transaction.
-/

namespace TableApi.Command

/-- **What commands run with.** -/
structure Config where
  dialect : Dialect
  /-- Rows of one insert at most, at least one. -/
  chunkSize : Nat
  one_le_chunkSize : 1 ≤ chunkSize

/-- The configuration of these settings. The dialect is the one that is configured. The database
speaks the same one, or else the server does not come up (`Engine.bootstrap`). -/
def Config.ofSettings (s : Settings) : Config where
  dialect := s.dialect
  chunkSize := max s.insertChunkSize 1
  one_le_chunkSize := Nat.le_max_right _ _

/-- A list of one value as that value. -/
def collapse : List Json → Json
  | [v] => v
  | vs => .array vs

/-- The results of a payload's rows in the payload's own shape. -/
def shape (p : Payload) (results : List Json) : Json :=
  match p with
  | .one _ => results.headD .null
  | .many _ => .array results

/-! ## Reading -/

/-- The select of a view within the conditions that links put on it. -/
def scopedSelect (d : Dialect) (r : Request) (v : View) : Except ApiError Statement := do
  let scope ← relationScope d r v
  pure ((scope.foldl View.pushFilter v).select d)

/-- **Read**: one select for each view, then the rows nested by the links. -/
def get (c : Config) (r : Request) : Work Json := do
  let queries ← Work.ofExcept (r.views.mapM (scopedSelect c.dialect r))
  let results ← Work.all (queries.map Work.fetch)
  pure (.object (Relation.merge r.views r.relations results))

/-! ## Inserting -/

/-- The rows in runs of `n`, the last one shorter. -/
def chunks (n : Nat) (hn : 1 ≤ n) (rows : List Row) : List (List Row) :=
  match _h : rows with
  | [] => []
  | _ :: _ => rows.take n :: chunks n hn (rows.drop n)
termination_by rows.length
decreasing_by simp only [List.length_drop, _h, List.length_cons]; omega

theorem flatten_chunks (n : Nat) (hn : 1 ≤ n) (rows : List Row) :
    (chunks n hn rows).flatten = rows := by
  fun_induction chunks n hn rows with
  | case1 => rfl
  | case2 r rest ih => simp [ih]

theorem length_le_of_mem_chunks {n : Nat} {hn : 1 ≤ n} {rows run : List Row}
    (h : run ∈ chunks n hn rows) : run.length ≤ n := by
  fun_induction chunks n hn rows with
  | case1 => simp at h
  | case2 r rest ih =>
    rcases List.mem_cons.1 h with rfl | h
    · exact List.length_take_le n _
    · exact ih h

/-- The rows of each insert. -/
def insertGroups (c : Config) (v : View) (rows : List Row) : List (List Row) :=
  (chunks c.chunkSize c.one_le_chunkSize rows).flatMap (v.insertBatches c.dialect)

/-- One insert: the keys that it hands back, or how many rows it inserted. -/
def insertGroup (c : Config) (v : View) (rows : List Row) : Work (List Json) := do
  let q ← Work.ofExcept (v.insert c.dialect rows)
  if v.returnsKeys c.dialect then
    let returned ← Work.fetch q
    let pk := v.primaryKey.getD ""
    pure (returned.map fun row => (row.get? pk).getD .null)
  else
    let n ← Work.execute q
    pure [.ofNat n]

/-- **Insert rows**, at most a chunk at a time. -/
def insertRows (c : Config) (v : View) (rows : List Row) : Work (List Json) := do
  let results ← (insertGroups c v rows).mapM (insertGroup c v)
  pure results.flatten

/-- The key that child rows get for the parent: the one that the database handed back, where the
link refers to the primary key, or else the body's own value. -/
def parentKey (c : Config) (parent : View) (row : Row) (result : Json) (l : Link) : Json :=
  if parent.primaryKey = some l.parentColumn ∧ parent.returnsKeys c.dialect = true then result
  else (row.get? l.parentColumn).getD .null

/-- The first link from one table to another. -/
def linkBetween? (links : List Link) (parent child : String) : Option Link :=
  links.find? fun l => l.parentTable = parent && l.childTable = child

/-- The rows of one child table, inserted under the parent row; nothing where the request has no
link to it. -/
def insertChild (c : Config) (r : Request) (payload : Payload) (result : Json) (out : Fields)
    (child : View) (childPayload : Payload) : Work Fields :=
  match linkBetween? r.relations r.primary.table child.table with
  | none => pure out
  | some l =>
    match payload with
    | .many _ => Work.fail (.badRequest .manyParents)
    | .one row => do
      let key := parentKey c r.primary row result l
      if key.isNull then
        Work.fail (.badRequest (.unresolvedParent l.parentTable l.parentColumn))
      else
        let rows := childPayload.rows.map (·.insert l.childColumn key)
        let ids ← insertRows c child rows
        pure (out.insert child.table (shape childPayload ids))

/-- The view at an index, if it is not the primary one and has a payload. -/
def childAt? (r : Request) (payloads : List (Option Payload)) (i : Nat) :
    Option (View × Payload) := do
  if i = 0 then none
  else
    let v ← r.views[i]?
    let p ← payloads[i]?.join
    pure (v, p)

/-- The primary rows, and then the rows of the child tables that have any, parents first. -/
def insertCascade (c : Config) (r : Request) (payloads : List (Option Payload)) : Work Json := do
  match payloads.head?.join with
  | none => Work.fail (.badRequest .missingBody)
  | some payload =>
    let ids ← insertRows c r.primary payload.rows
    let result := shape payload ids
    let order := Relation.writeOrder (r.views.map View.table) r.relations
    let out ← (order.filterMap (childAt? r payloads)).foldlM
      (fun out (child, p) => insertChild c r payload result out child p)
      [(r.primary.table, result)]
    pure (.object out)

/-- **Insert**: the primary rows and their children, all or nothing. -/
def post (c : Config) (r : Request) (payloads : List (Option Payload)) : Work Json :=
  Work.transaction (insertCascade c r payloads)

/-! ## Updating -/

/-- The update of a single row within its scope. -/
def updateOne (d : Dialect) (v : View) (row : Row) : Except ApiError Statement := do
  match ← rowScope d v row with
  | none => .error (.badRequest .unscopedUpdate)
  | some scope => v.update d row scope

/-- The update of one row of several within its own scope. -/
def updateElement (d : Dialect) (v : View) (row : Row) : Except ApiError Statement := do
  match ← elementScope d v row with
  | none => .error (.badRequest .itemWithoutKey)
  | some scope => v.update d row scope

/-- **Update** the primary view: the rows of its scope, or each row of a list by its own key. -/
def patch (c : Config) (r : Request) (body : Json) : Work Json := do
  let v := r.primary
  let result ←
    match ← Work.ofExcept (Payload.ofBody body) with
    | .one row => do
      let q ← Work.ofExcept (updateOne c.dialect v row)
      let n ← Work.execute q
      pure (.ofNat n)
    | .many rows => do
      let queries ← Work.ofExcept (rows.mapM (updateElement c.dialect v))
      let counts ← Work.all (queries.map Work.execute)
      pure (collapse (counts.map Json.ofNat))
  pure (.object [(v.table, result)])

/-! ## Updating or inserting -/

/-- The last of several results. -/
def lastResult (results : List Json) : Json :=
  results.getLast?.getD .null

/-- A row is updated where its scope has a row, and inserted otherwise. -/
def upsert (c : Config) (v : View) (row : Row) (scope : Option String) : Work Json :=
  match scope with
  | none => lastResult <$> insertRows c v [row]
  | some scope => do
    let present ← Work.fetch (v.exists_ c.dialect scope)
    if present.isEmpty then lastResult <$> insertRows c v [row]
    else
      let q ← Work.ofExcept (v.update c.dialect row scope)
      let n ← Work.execute q
      pure (.ofNat n)

/-- The rows of a payload, each updated or inserted. -/
def upsertAll (c : Config) (v : View) : Payload → Work Json
  | .one row => do
    let scope ← Work.ofExcept (rowScope c.dialect v row)
    upsert c v row scope
  | .many rows => do
    let results ← rows.mapM fun row => do
      let scope ← Work.ofExcept (elementScope c.dialect v row)
      upsert c v row scope
    pure (collapse results)

/-- **Save** rows of the primary view: update or insert, all or nothing. -/
def put (c : Config) (r : Request) (body : Json) : Work Json := do
  let payload ← Work.ofExcept (Payload.ofBody body)
  let result ← Work.transaction (upsertAll c r.primary payload)
  pure (.object [(r.primary.table, result)])

/-! ## Deleting -/

/-- The scope of a view's delete. Only the primary view may go without one. -/
def deleteScope (d : Dialect) (r : Request) (v : View) : Except ApiError (Option String) := do
  let links ← relationScope d r v
  let parts := v.idFilter.toList ++ v.filters ++ links
  if parts.isEmpty && v.role != .primary then .error (.badRequest (.deletesAll v.table))
  else pure (View.conjunction? parts)

/-- The deletes of the views at these indices, with their scopes. -/
def deletesAt (d : Dialect) (views : List View) (scopes : List (Option String))
    (order : List Nat) : List (View × Statement) :=
  order.filterMap fun i => (views[i]?).map fun v => (v, v.delete d scopes[i]?.join)

/-- The deletes one after the other, and how many rows each deleted. -/
def deleteAll (deletes : List (View × Statement)) : Work Json := do
  let out ← deletes.foldlM
    (fun (out : Fields) (v, q) => do
      let n ← Work.execute q
      pure (out.insert v.table (.ofNat n)))
    []
  pure (.object out)

/-- **Delete** the rows of every view, children first, all or nothing. -/
def delete (c : Config) (r : Request) : Work Json := do
  let scopes ← Work.ofExcept (r.views.mapM (deleteScope c.dialect r))
  let order := Relation.deleteOrder (r.views.map View.table) r.relations
  Work.transaction (deleteAll (deletesAt c.dialect r.views scopes order))

end TableApi.Command
