import Mathlib.Data.List.Nodup
import TableApi.Command.Basic
import TableApi.Proofs.Request.Coherent
import TableApi.Proofs.Session.Agenda
import TableApi.Proofs.View.Inserts

/-!
# Inserts with children

What a request inserts, and in which order, is known from its links, its payloads and the reply to
the first insert (`Request.insertAgenda`): the primary rows, and then, parents first, the rows of
each other view that has a payload and a link from the primary table (`Request.children`), under the
parent key of that link (`parentKey?`). A child whose link finds no key stands on the agenda as a
failed check. `followsOn_insertCascade` is that the inserts are sent by this agenda.
-/

namespace TableApi

/-- **A child table that rows are inserted in**: its view, the rows, and the link to the parent. -/
structure Child where
  view : View
  payload : Payload
  link : Link

/-- **The children of a request**, in the order of writing: the views other than the primary one
that have a payload and a link from the primary table, each with the first such link. -/
def Request.children (r : Request) (payloads : List (Option Payload)) : List Child :=
  (Relation.writeOrder (r.views.map View.table) r.relations).filterMap fun i =>
    if i = 0 then none
    else do
      let view ← r.views[i]?
      let payload ← payloads[i]?.join
      let link ← r.relations.find? fun l =>
        l.parentTable = r.primary.table ∧ l.childTable = view.table
      pure ⟨view, payload, link⟩

namespace Command

variable {c : Config} {r : Request} {v : View} {payload : Payload}

/-! ## Keys -/

/-- The key that the reply to the insert of one row hands back. -/
def returnedKey? (v : View) (script : List Reply) : Option Json := do
  let pk ← v.primaryKey
  let row ← (rowsHeard script).head?
  row.get? pk

/-- **The key under which a link puts rows**: the one that the database handed back for a single
parent row, where the link is on the primary key and the dialect returns keys, and else what the row
itself has in the linked column. A null is no key, and several parents have none. -/
def parentKey? (d : Dialect) (parent : View) (payload : Payload) (script : List Reply) (l : Link) :
    Option Json :=
  match payload with
  | .many _ => none
  | .one row =>
    let found :=
      if parent.primaryKey = some l.parentColumn ∧ d.returning ≠ .none then
        returnedKey? parent script
      else row.get? l.parentColumn
    found.filter (!·.isNull)

/-! ## The agenda -/

/-- An insert as it is sent: one that hands back keys is a query. -/
def insertEvent (d : Dialect) (v : View) (q : Statement) : Event :=
  if v.returnsKeys d then .fetch true q else .execute true q

/-- **The inserts of rows of a view**, one for each group of them. -/
def insertAgenda (c : Config) (v : View) (rows : List Row) : Agenda :=
  (insertGroups c v rows).map fun group =>
    (v.insert c.dialect group).map (insertEvent c.dialect v)

end Command

namespace Child

/-- The rows of a child under a parent key, which replaces what they have in that column. -/
def rows (child : Child) (key : Json) : List Row :=
  child.payload.rows.map (·.insert child.link.childColumn key)

/-- Why a child has no parent key. -/
def refusal (child : Child) : Payload → ApiError
  | .many _ => .badRequest .manyParents
  | .one _ => .badRequest (.unresolvedParent child.link.parentTable child.link.parentColumn)

/-- The inserts of a child's rows, or the refusal of a child without a parent key. -/
def agenda (c : Command.Config) (parent : View) (payload : Payload) (script : List Reply)
    (child : Child) : Agenda :=
  match Command.parentKey? c.dialect parent payload script child.link with
  | some key => Command.insertAgenda c child.view (child.rows key)
  | none => [.error (child.refusal payload)]

end Child

/-- **What a request inserts**: the primary rows, and then those of its children. -/
def Request.insertAgenda (c : Command.Config) (r : Request) (payload : Payload)
    (payloads : List (Option Payload)) (script : List Reply) : Agenda :=
  Command.insertAgenda c r.primary payload.rows ++
    (r.children payloads).flatMap (Child.agenda c r.primary payload script)

/-- A child without a parent key is a check on the agenda. -/
theorem Request.insertAgenda_of_parentKey?_eq_none {c : Command.Config} {r : Request}
    {payload : Payload} {payloads : List (Option Payload)} {script : List Reply} {child : Child}
    {before after : List Child} (h : r.children payloads = before ++ child :: after)
    (hkey : Command.parentKey? c.dialect r.primary payload script child.link = none) :
    r.insertAgenda c payload payloads script =
      (Command.insertAgenda c r.primary payload.rows ++
        before.flatMap (Child.agenda c r.primary payload script)) ++
          .error (child.refusal payload) ::
            after.flatMap (Child.agenda c r.primary payload script) := by
  have hchild : Child.agenda c r.primary payload script child =
      [.error (child.refusal payload)] := by
    rw [Child.agenda, hkey]
  rw [insertAgenda, h, List.flatMap_append, List.flatMap_cons, hchild, List.append_assoc]
  rfl

namespace Command

variable {c : Config} {r : Request} {v : View} {payload : Payload}

/-! ## Rows -/

/-- **Rows are inserted by their agenda.** -/
theorem followsOn_insertRows (c : Config) (v : View) (rows : List Row) {s : Session}
    (hs : s.inTransaction = true) : FollowsOn (insertRows c v rows) s (insertAgenda c v rows) := by
  have hgroup : ∀ group s, s.inTransaction = true → FollowsOn (insertGroup c v group) s
      [(v.insert c.dialect group).map (insertEvent c.dialect v)] := by
    intro group s hs
    rw [insertGroup]
    cases v.insert c.dialect group with
    | error e => exact .fail e hs
    | ok q =>
      change FollowsOn (if _ then _ else _) s [.ok (insertEvent c.dialect v q)]
      rw [insertEvent]
      split
      · exact (FollowsOn.of_event (hs ▸ Work.on_fetch q s) hs).map _
      · obtain ⟨n, hn⟩ := Work.on_execute q s
        exact (FollowsOn.of_event (hs ▸ hn) hs).map _
  rw [insertRows, insertAgenda, ← List.append_nil (List.map _ _), List.map_eq_flatMap]
  exact (FollowsOn.mapM hgroup _ hs).bind fun results s' _ hs' => .pure _ hs'

@[simp] theorem insertGroups_singleton (c : Config) (v : View) (row : Row) :
    insertGroups c v [row] = [[row]] := by
  have hchunks : chunks c.chunkSize c.one_le_chunkSize [row] = [[row]] := by
    have hn := c.one_le_chunkSize
    rw [chunks, List.take_of_length_le hn, List.drop_of_length_le hn, chunks]
  rw [insertGroups, hchunks, List.flatMap_singleton, View.insertBatches]
  split
  · simp_all
  · split <;> rfl

@[simp] theorem insertRows_singleton (c : Config) (v : View) (row : Row) :
    insertRows c v [row] = insertGroup c v [row] := by
  rw [insertRows, insertGroups_singleton]
  simp

/-- **The key that the insert of one row hands back** is the first one of the reply. -/
theorem headD_of_insertRows {row : Row} {s s' : Session} {keys : List Json}
    (h : (insertRows c v [row]).on s = (.ok keys, s')) (hreturns : v.returnsKeys c.dialect = true) :
    keys.headD .null = (returnedKey? v s.script).getD .null := by
  obtain ⟨pk, hpk⟩ : ∃ pk, v.primaryKey = some pk := by
    simp only [View.returnsKeys, Bool.and_eq_true] at hreturns
    exact Option.isSome_iff_exists.1 hreturns.1
  rw [insertRows_singleton, insertGroup, Work.on_bind, Work.on_ofExcept] at h
  cases hinsert : v.insert c.dialect [row] with
  | error e => simp [hinsert] at h
  | ok q =>
    rw [hinsert] at h
    dsimp only at h
    rw [if_pos hreturns, Work.on_bind, Work.on_fetch, Event.answer] at h
    cases hheard : ((Event.fetch s.inTransaction q).heard s.script).1 with
    | some why => simp [hheard] at h
    | none =>
      rw [hheard] at h
      obtain rfl := Except.ok.inj (Prod.mk.inj h).1
      rw [returnedKey?, hpk]
      cases rowsHeard s.script <;> rfl

/-! ## Children -/

/-- A child has a parent key where the one that it would get is not null. -/
theorem parentKey?_one {row : Row} {result : Json} {script : List Reply}
    (hresult : v.returnsKeys c.dialect = true → result = (returnedKey? v script).getD .null)
    (l : Link) :
    parentKey? c.dialect v (.one row) script l =
      if (parentKey c v row result l).isNull then none else some (parentKey c v row result l) := by
  have hnull : ∀ found : Option Json, found.filter (!·.isNull) =
      if (found.getD .null).isNull then none else some (found.getD .null) := by
    intro found
    cases found with
    | none => rfl
    | some key => cases key <;> rfl
  rw [parentKey?, parentKey, hnull]
  by_cases hpk : v.primaryKey = some l.parentColumn
  · by_cases hd : c.dialect.returning = .none
    · simp [View.returnsKeys, hpk, hd]
    · have hkeys : v.returnsKeys c.dialect = true := by simp [View.returnsKeys, hpk, hd]
      simp [hpk, hd, hkeys, hresult hkeys]
  · simp [hpk]

/-- What a view with a payload adds to the agenda. -/
def childAgenda (c : Config) (r : Request) (payload : Payload) (script : List Reply)
    (child : View × Payload) : Agenda :=
  match linkBetween? r.relations r.primary.table child.1.table with
  | some l => Child.agenda c r.primary payload script ⟨child.1, child.2, l⟩
  | none => []

/-- **The rows of a child are inserted by its agenda.** -/
theorem followsOn_insertChild {result : Json} {script : List Reply}
    (hresult : ∀ row, payload = .one row → r.primary.returnsKeys c.dialect = true →
      result = (returnedKey? r.primary script).getD .null)
    (out : Fields) (child : View × Payload) {s : Session} (hs : s.inTransaction = true) :
    FollowsOn (insertChild c r payload result out child.1 child.2) s
      (childAgenda c r payload script child) := by
  rw [insertChild, childAgenda]
  cases linkBetween? r.relations r.primary.table child.1.table with
  | none => exact .pure out hs
  | some l =>
    cases payload with
    | many rows => exact .fail _ hs
    | one row =>
      dsimp only
      rw [Child.agenda, parentKey?_one (hresult row rfl)]
      cases (parentKey c r.primary row result l).isNull with
      | true => exact .fail _ hs
      | false =>
        rw [if_neg Bool.false_ne_true, if_neg Bool.false_ne_true]
        dsimp only
        rw [← List.append_nil (insertAgenda _ _ _)]
        exact (followsOn_insertRows c child.1 _ hs).bind fun keys s' _ hs' => .pure _ hs'

/-- The children are the views with a payload that have a link. -/
theorem children_eq_filterMap (payloads : List (Option Payload)) :
    r.children payloads =
      ((Relation.writeOrder (r.views.map View.table) r.relations).filterMap
        (childAt? r payloads)).filterMap fun child =>
          (linkBetween? r.relations r.primary.table child.1.table).map
            fun l => ⟨child.1, child.2, l⟩ := by
  rw [Request.children, List.filterMap_filterMap]
  refine List.filterMap_congr fun i _ => ?_
  rw [childAt?]
  split
  · rfl
  · cases r.views[i]? with
    | none => rfl
    | some view =>
      cases payloads[i]?.join with
      | none => rfl
      | some payload =>
        simp only [linkBetween?, Bool.decide_and]
        exact Option.map_eq_bind.symm

/-- So their agendas are what the views with a payload add. -/
theorem flatMap_agenda_children (payloads : List (Option Payload)) (script : List Reply) :
    (r.children payloads).flatMap (Child.agenda c r.primary payload script) =
      ((Relation.writeOrder (r.views.map View.table) r.relations).filterMap
        (childAt? r payloads)).flatMap (childAgenda c r payload script) := by
  rw [children_eq_filterMap]
  generalize (Relation.writeOrder _ _).filterMap (childAt? r payloads) = views
  induction views with
  | nil => rfl
  | cons child views ih =>
    rw [List.filterMap_cons, List.flatMap_cons, childAgenda, ← ih]
    cases linkBetween? r.relations r.primary.table child.1.table <;> rfl

/-- **An insert with its children follows the agenda of the request.** -/
theorem followsOn_insertCascade {payloads : List (Option Payload)}
    (hpayload : payloads.head? = some (some payload)) {s : Session}
    (hs : s.inTransaction = true) :
    FollowsOn (insertCascade c r payloads) s (r.insertAgenda c payload payloads s.script) := by
  rw [insertCascade, hpayload, Request.insertAgenda, flatMap_agenda_children,
    ← List.append_nil (List.flatMap _ _)]
  refine (followsOn_insertRows c r.primary payload.rows hs).bind fun keys s' hkeys hs' => ?_
  refine FollowsOn.bind (FollowsOn.foldlM (fun out child s hs => ?_) _ _ hs')
    fun out s'' _ hs'' => .pure _ hs''
  refine followsOn_insertChild (fun row hrow hreturns => ?_) out child hs
  subst hrow
  exact headD_of_insertRows hkeys hreturns

/-! ## The rows of a child -/

@[simp] theorem flatten_insertGroups (c : Config) (v : View) (rows : List Row) :
    (insertGroups c v rows).flatten = rows := by
  rw [insertGroups, List.flatMap_def, List.flatten_flatten, List.map_map]
  have hbatches : List.flatten ∘ v.insertBatches c.dialect = id :=
    funext fun run => View.flatten_insertBatches v c.dialect run
  rw [hbatches, List.map_id, flatten_chunks]

/-- **Every row of a child is inserted under the parent key**, whatever it had in that column, if
the column is one of the child's table. -/
theorem binds_of_mem_insertGroups {child : Child} {key : Json} {group : List Row}
    (hcolumn : child.view.schema.hasColumn child.link.childColumn = true)
    (hgroup : group ∈ insertGroups c child.view (child.rows key)) :
    child.view.Binds c.dialect group child.link.childColumn key := by
  refine fun q hq => ⟨View.params_of_insert hq, fun row hrow => ?_⟩
  have hchild : row ∈ child.rows key := by
    rw [← flatten_insertGroups c child.view (child.rows key)]
    exact List.mem_flatten.2 ⟨group, hgroup, hrow⟩
  obtain ⟨bodyRow, -, rfl⟩ := List.mem_map.1 hchild
  rw [View.get?_written hrow, if_pos hcolumn]
  simp

/-- A child is a view that the link's child column is a column of. -/
theorem hasColumn_of_mem_children {ctx : Context} (hr : r.Coherent ctx)
    {payloads : List (Option Payload)} {child : Child} (h : child ∈ r.children payloads) :
    child.view.schema.hasColumn child.link.childColumn = true := by
  rw [children_eq_filterMap] at h
  obtain ⟨⟨view, p⟩, hview, hlink⟩ := List.mem_filterMap.1 h
  obtain ⟨i, -, hat⟩ := List.mem_filterMap.1 hview
  obtain ⟨l, hl, rfl⟩ := Option.map_eq_some_iff.1 hlink
  have hmem : view ∈ r.views := by
    rw [childAt?] at hat
    split at hat
    · simp at hat
    · obtain ⟨v, hv, hat⟩ := Option.bind_eq_some_iff.1 hat
      obtain ⟨p', -, hat⟩ := Option.bind_eq_some_iff.1 hat
      obtain rfl := (Prod.mk.inj (Option.some.inj hat)).1
      exact List.mem_of_getElem? hv
  have htable : l.childTable = view.table := by
    have hbetween := List.find?_some hl
    simp only [Bool.and_eq_true, decide_eq_true_eq] at hbetween
    exact hbetween.2
  obtain ⟨-, w, hw, hwtable, hcolumn⟩ := hr.links l (List.mem_of_find?_eq_some hl)
  -- no two views are of one table
  obtain rfl : w = view :=
    List.inj_on_of_nodup_map hr.tables hw hmem (hwtable.trans htable)
  exact hcolumn

end Command

end TableApi
