import TableApi.Proofs.Command.Inserts

/-!
# Saves

A save goes row by row. Which statements it sends for a row depends on the row's scope and on the
reply to the check whether the scope has a row (`saving`): a check and an update of that same scope,
a check and an insert, or an insert alone. The rows of a list are saved one after the other, each
with the replies that the ones before it have left (`savings`). `followsTo_upsertAll` is that a save
follows these agendas, and that its result is what they answer.
-/

namespace TableApi

/-- **Several results as one value**: a single one is that value itself, and any other number of
them is a list. -/
def Json.Collects (v : Json) (results : List Json) : Prop :=
  (∀ only, results = [only] → v = only) ∧ (results.length ≠ 1 → v = .array results)

/-- **One row of a save**: what is sent for it, and what is answered for it if all of that
succeeds. -/
structure Saving where
  agenda : Agenda
  answer : Json

theorem View.sql_exists (v : View) (d : Dialect) (condition : String) :
    (v.exists_ d condition).sql = "SELECT 1 AS present FROM " ++ v.tableSql d ++ " WHERE " ++
      condition ++ d.paginate none (some 1) false :=
  rfl

theorem View.sql_of_update {v : View} {d : Dialect} {row : Row} {condition : String}
    {q : Statement} (h : v.update d row condition = .ok q) :
    q.sql = "UPDATE " ++ v.tableSql d ++ " SET " ++
      ", ".intercalate (assignments d 0 (v.updatedColumns row)) ++ " WHERE " ++ condition := by
  rw [update] at h
  split at h
  · simp at h
  · obtain rfl := Except.ok.inj h
    rfl

namespace Command

variable {d : Dialect} {v : View} {row : Row}

@[simp] theorem collects_collapse (results : List Json) : (collapse results).Collects results := by
  rcases results with _ | ⟨first, _ | ⟨second, rest⟩⟩ <;> simp [collapse, Json.Collects]

/-! ## The agenda -/

/-- The insert of one row: the answer is the key that is handed back, or how many rows were
inserted. -/
def insertion (d : Dialect) (v : View) (row : Row) (script : List Reply) : Saving where
  agenda := [(v.insert d [row]).map (insertEvent d v)]
  answer :=
    if v.returnsKeys d then
      ((rowsHeard script).getLast?.bind (·.get? (v.primaryKey.getD ""))).getD .null
    else .ofNat (countHeard script)

/-- **How a row is saved**, given its scope and the replies to come. Without a scope it is inserted.
With one there is a check first; then it is inserted if the check finds nothing, and the scope is
updated otherwise. -/
def saving (d : Dialect) (v : View) (row : Row) (scope : Except ApiError (Option String))
    (script : List Reply) : Saving :=
  match scope with
  | .error why => ⟨[.error why], .null⟩
  | .ok none => insertion d v row script
  | .ok (some scope) =>
    let check : Except ApiError Event := .ok (.fetch true (v.exists_ d scope))
    if (rowsHeard script).isEmpty then
      ⟨check :: (insertion d v row script.tail).agenda, (insertion d v row script.tail).answer⟩
    else ⟨[check, (v.update d row scope).map (.execute true)], .ofNat (countHeard script.tail)⟩

/-- **How rows are saved**, one after the other. Every statement takes a reply. -/
def savings (d : Dialect) (v : View) (scope : Row → Except ApiError (Option String)) :
    List Row → List Reply → List Saving
  | [], _ => []
  | row :: rows, script =>
    saving d v row (scope row) script ::
      savings d v scope rows (script.drop (saving d v row (scope row) script).agenda.length)

end Command

/-- The scope of a payload's row: that of the view for a single row, and the row's own for one of
several. -/
def Payload.scope (d : Dialect) (v : View) : Payload → Row → Except ApiError (Option String)
  | .one _ => Command.rowScope d v
  | .many _ => Command.elementScope d v

/-- **How a payload is saved.** -/
def Payload.savings (d : Dialect) (v : View) (p : Payload) (script : List Reply) : List Saving :=
  Command.savings d v (p.scope d v) p.rows script

namespace Command

variable {d : Dialect} {v : View} {row : Row}

@[simp] theorem length_savings (scope : Row → Except ApiError (Option String)) (rows : List Row)
    (script : List Reply) : (savings d v scope rows script).length = rows.length := by
  induction rows generalizing script with
  | nil => rfl
  | cons row rows ih => rw [savings, List.length_cons, List.length_cons, ih]

/-- **Each part is that of its row**, with the replies that are left by the parts before it. -/
theorem getElem?_savings (scope : Row → Except ApiError (Option String)) (rows : List Row)
    (script : List Reply) (k : Nat) :
    (savings d v scope rows script)[k]? = rows[k]?.map fun row =>
      saving d v row (scope row) (script.drop
        (((savings d v scope rows script).take k).flatMap Saving.agenda).length) := by
  induction rows generalizing script k with
  | nil => simp [savings]
  | cons row rows ih =>
    rw [savings]
    cases k with
    | zero => simp
    | succ k =>
      rw [List.getElem?_cons_succ, List.getElem?_cons_succ, ih, List.take_succ_cons,
        List.flatMap_cons, List.length_append, List.drop_drop]

/-- **What may be sent for a row**: the check of its scope, its insert, and the update of that
scope. -/
theorem event_of_mem_saving {scope : Except ApiError (Option String)} {script : List Reply}
    {event : Event} (h : .ok event ∈ (saving d v row scope script).agenda) :
    (∃ q, v.insert d [row] = .ok q ∧ event = insertEvent d v q) ∨
      ∃ condition, scope = .ok (some condition) ∧ (event = .fetch true (v.exists_ d condition) ∨
        ∃ q, v.update d row condition = .ok q ∧ event = .execute true q) := by
  have hinsert : ∀ script, .ok event ∈ (insertion d v row script).agenda →
      ∃ q, v.insert d [row] = .ok q ∧ event = insertEvent d v q := by
    intro script hmem
    obtain ⟨q, hq, rfl⟩ := map_eq_ok.1 (List.mem_singleton.1 hmem).symm
    exact ⟨q, hq, rfl⟩
  cases scope with
  | error why => simp [saving] at h
  | ok scope =>
    cases scope with
    | none => exact .inl (hinsert script h)
    | some condition =>
      dsimp only [saving] at h
      split at h
      · rcases List.mem_cons.1 h with h | h
        · exact .inr ⟨condition, rfl, .inl (Except.ok.inj h)⟩
        · exact .inl (hinsert _ h)
      · rcases List.mem_cons.1 h with h | h
        · exact .inr ⟨condition, rfl, .inl (Except.ok.inj h)⟩
        · obtain ⟨q, hq, hevent⟩ := map_eq_ok.1 (List.mem_singleton.1 h).symm
          exact .inr ⟨condition, rfl, .inr ⟨q, hq, hevent.symm⟩⟩

theorem isInside_of_mem_saving {scope : Except ApiError (Option String)} {script : List Reply}
    {event : Event} (h : .ok event ∈ (saving d v row scope script).agenda) : event.IsInside := by
  rcases event_of_mem_saving h with ⟨q, -, rfl⟩ | ⟨condition, -, rfl | ⟨q, -, rfl⟩⟩
  · rw [insertEvent]
    split <;> rfl
  · rfl
  · rfl

/-! ## What is sent -/

variable {s : Session}

theorem lastResult_keys (returned : List Row) (pk : String) :
    lastResult (returned.map fun row => (row.get? pk).getD .null) =
      (returned.getLast?.bind (·.get? pk)).getD .null := by
  rw [lastResult, List.getLast?_map]
  cases returned.getLast? <;> rfl

theorem followsTo_insertion (c : Config) (v : View) (row : Row) (hs : s.inTransaction = true) :
    FollowsTo (lastResult <$> insertRows c v [row]) s (insertion c.dialect v row s.script).agenda
      (insertion c.dialect v row s.script).answer := by
  rw [insertRows_singleton, insertGroup]
  dsimp only [insertion]
  cases v.insert c.dialect [row] with
  | error why => exact .fail why _ hs
  | ok q =>
    change FollowsTo (lastResult <$> if _ then _ else _) s [.ok (insertEvent c.dialect v q)] _
    rw [insertEvent]
    split
    · rw [← lastResult_keys]
      exact ((FollowsTo.of_event (hs ▸ Work.on_fetch q s) hs).map _).map lastResult
    · exact ((FollowsTo.of_event (hs ▸ Work.on_execute_eq q s) hs).map _).map lastResult

theorem followsTo_update (q : Except ApiError Statement) (hs : s.inTransaction = true) :
    FollowsTo (Work.ofExcept q >>= fun q => Work.execute q >>= fun n => pure (Json.ofNat n)) s
      [q.map (.execute true)] (.ofNat (countHeard s.script)) := by
  cases q with
  | error why => exact .fail why _ hs
  | ok q => exact (FollowsTo.of_event (hs ▸ Work.on_execute_eq q s) hs).map Json.ofNat

/-- **A row is saved as is said of it.** -/
theorem followsTo_upsert (c : Config) (v : View) (row : Row)
    (scope : Except ApiError (Option String)) (hs : s.inTransaction = true) :
    FollowsTo (Work.ofExcept scope >>= upsert c v row) s
      (saving c.dialect v row scope s.script).agenda
      (saving c.dialect v row scope s.script).answer := by
  cases scope with
  | error why => exact .fail why _ hs
  | ok scope =>
    change FollowsTo (upsert c v row scope) s _ _
    cases scope with
    | none => exact followsTo_insertion c v row hs
    | some scope =>
      have hcheck : FollowsTo (Work.fetch (v.exists_ c.dialect scope)) s
          [.ok (.fetch true (v.exists_ c.dialect scope))] (rowsHeard s.script) :=
        .of_event (hs ▸ Work.on_fetch _ s) hs
      -- the check takes the next reply, whatever it is
      have htail : ∀ s', (Work.fetch (v.exists_ c.dialect scope)).on s =
          (.ok (rowsHeard s.script), s') → s'.script = s.script.tail := by
        intro s' hrun
        rw [hcheck.1.script_of_ok (by simp [Event.IsInside]) hrun]
        exact List.drop_one
      dsimp only [upsert, saving]
      by_cases hpresent : (rowsHeard s.script).isEmpty
      · rw [if_pos hpresent]
        refine hcheck.bind fun s' hrun hs' => ?_
        rw [if_pos hpresent, ← htail s' hrun]
        exact followsTo_insertion c v row hs'
      · rw [if_neg hpresent]
        refine hcheck.bind fun s' hrun hs' => ?_
        rw [if_neg hpresent, ← htail s' hrun]
        exact followsTo_update _ hs'

/-- **Rows are saved one after the other.** -/
theorem followsTo_upserts (c : Config) (v : View) (scope : Row → Except ApiError (Option String))
    (rows : List Row) (hs : s.inTransaction = true) :
    FollowsTo (rows.mapM fun row => Work.ofExcept (scope row) >>= upsert c v row) s
      ((savings c.dialect v scope rows s.script).flatMap Saving.agenda)
      ((savings c.dialect v scope rows s.script).map Saving.answer) := by
  induction rows generalizing s with
  | nil => exact .pure [] hs
  | cons row rows ih =>
    have hrow := followsTo_upsert c v row (scope row) hs
    rw [List.mapM_cons, savings, List.flatMap_cons, List.map_cons]
    refine hrow.bind fun s' hrun hs' => ?_
    rw [← hrow.1.script_of_ok (fun _ => isInside_of_mem_saving) hrun, ← map_eq_pure_bind]
    exact (ih hs').map _

/-- **A save follows the agendas of its rows**, and its result is what they answer. -/
theorem followsTo_upsertAll (c : Config) (v : View) (payload : Payload)
    (hs : s.inTransaction = true) :
    FollowsTo (upsertAll c v payload) s
      ((payload.savings c.dialect v s.script).flatMap Saving.agenda)
      (collapse ((payload.savings c.dialect v s.script).map Saving.answer)) := by
  cases payload with
  | one row =>
    have hone : (Payload.one row).savings c.dialect v s.script =
        [saving c.dialect v row (rowScope c.dialect v row) s.script] := rfl
    rw [hone, List.flatMap_singleton]
    exact followsTo_upsert c v row (rowScope c.dialect v row) hs
  | many rows =>
    rw [upsertAll, ← map_eq_pure_bind]
    exact (followsTo_upserts c v (elementScope c.dialect v) rows hs).map collapse

end Command

end TableApi
