import TableApi.Command.Basic
import TableApi.Proofs.Outcome
import TableApi.Proofs.Session.Transaction

/-!
# Orderly commands

The work that inserts, saves and deletes do in their transactions is orderly:
`orderly_insertCascade`, `orderly_upsertAll` and `orderly_deleteAll`. Each is a sequence or a loop
of statements and of checks that are made between them; the checks only ever find fault with the
request (`Refuses`).
-/

namespace TableApi

variable {α β : Type}

/-! ## Checks -/

/-- **A check that blames the request**: however it fails, the request is at fault. -/
def Refuses (x : Except ApiError α) : Prop :=
  ∀ e, x = .error e → e.IsRefusal

namespace Refuses

theorem ok (a : α) : Refuses (.ok a) :=
  FailsAs.ok a

theorem error {e : ApiError} (h : e.IsRefusal) : Refuses (.error e : Except ApiError α) :=
  FailsAs.error h

theorem bind {x : Except ApiError α} {f : α → Except ApiError β} (hx : Refuses x)
    (hf : ∀ a, Refuses (f a)) : Refuses (x >>= f) :=
  FailsAs.bind hx hf

theorem map {x : Except ApiError α} (hx : Refuses x) (f : α → β) : Refuses (x.map f) :=
  FailsAs.map hx f

end Refuses

namespace Command

@[simp] theorem refuses_equality (d : Dialect) (table column : String) (values : List String) :
    Refuses (equality d table column values) := by
  rw [equality]
  cases Filter.equality d table column values with
  | error e => exact .error trivial
  | ok sql => exact .ok sql

@[simp] theorem refuses_keyFilter (d : Dialect) (v : View) (row : Row) :
    Refuses (keyFilter d v row) := by
  rw [keyFilter]
  split
  · exact .ok none
  · next pk _ =>
    split
    · next value _ => exact (refuses_equality d v.table pk [value]).map some
    · exact .ok none

@[simp] theorem refuses_elementScope (d : Dialect) (v : View) (row : Row) :
    Refuses (elementScope d v row) := by
  refine (refuses_keyFilter d v row).bind fun key => ?_
  split
  · exact .ok none
  · exact .ok _

@[simp] theorem refuses_rowScope (d : Dialect) (v : View) (row : Row) :
    Refuses (rowScope d v row) := by
  rw [rowScope]
  split
  · exact .ok _
  · exact (refuses_keyFilter d v row).map _

@[simp] theorem refuses_insert (d : Dialect) (v : View) (rows : List Row) :
    Refuses (v.insert d rows) := by
  rw [View.insert]
  dsimp only
  split
  · exact .error trivial
  · exact .ok _

@[simp] theorem refuses_update (d : Dialect) (v : View) (row : Row) (condition : String) :
    Refuses (v.update d row condition) := by
  dsimp only [View.update]
  split
  · exact .error trivial
  · exact .ok _

/-! ## Inserting -/

@[simp] theorem orderly_insertGroup (c : Config) (v : View) (rows : List Row) :
    Orderly (insertGroup c v rows) := by
  refine (Orderly.ofExcept (refuses_insert c.dialect v rows)).bind fun q => ?_
  split
  · exact (Orderly.fetch q).bind fun returned => .pure _
  · exact (Orderly.execute q).bind fun n => .pure _

@[simp] theorem orderly_insertRows (c : Config) (v : View) (rows : List Row) :
    Orderly (insertRows c v rows) :=
  (Orderly.mapM (orderly_insertGroup c v)).bind fun results => .pure results.flatten

theorem orderly_insertChild (c : Config) (r : Request) (payload : Payload) (result : Json)
    (out : Fields) (child : View) (childPayload : Payload) :
    Orderly (insertChild c r payload result out child childPayload) := by
  rw [insertChild]
  split
  · exact .pure out
  · split
    · exact .fail trivial
    · dsimp only
      split
      · exact .fail trivial
      · exact (orderly_insertRows c child _).bind fun ids => .pure _

/-- **An insert with its children is orderly.** -/
@[simp] theorem orderly_insertCascade (c : Config) (r : Request)
    (payloads : List (Option Payload)) :
    Orderly (insertCascade c r payloads) := by
  rw [insertCascade]
  split
  · exact .fail trivial
  · next payload _ =>
    refine (orderly_insertRows c r.primary payload.rows).bind fun ids => ?_
    refine (Orderly.foldlM (fun out p => ?_) _).bind fun out => .pure (Json.object out)
    exact orderly_insertChild c r payload _ out p.1 p.2

/-! ## Saving -/

@[simp] theorem orderly_upsert (c : Config) (v : View) (row : Row) (scope : Option String) :
    Orderly (upsert c v row scope) := by
  dsimp only [upsert]
  split
  · exact (orderly_insertRows c v [row]).map lastResult
  · next scope =>
    refine (Orderly.fetch _).bind fun present => ?_
    split
    · exact (orderly_insertRows c v [row]).map lastResult
    · refine (Orderly.ofExcept (refuses_update c.dialect v row scope)).bind fun q => ?_
      exact (Orderly.execute q).bind fun n => .pure (Json.ofNat n)

/-- **A save is orderly**, of one row and of several. -/
@[simp] theorem orderly_upsertAll (c : Config) (v : View) (payload : Payload) :
    Orderly (upsertAll c v payload) := by
  cases payload with
  | one row =>
    exact (Orderly.ofExcept (refuses_rowScope c.dialect v row)).bind (orderly_upsert c v row)
  | many rows =>
    refine (Orderly.mapM fun row => ?_).bind fun results => .pure (collapse results)
    exact (Orderly.ofExcept (refuses_elementScope c.dialect v row)).bind (orderly_upsert c v row)

/-! ## Deleting -/

/-- **A delete is orderly.** -/
@[simp] theorem orderly_deleteAll (deletes : List (View × Statement)) :
    Orderly (deleteAll deletes) := by
  refine (Orderly.foldlM (fun (out : Fields) d => ?_) []).bind fun out => .pure (Json.object out)
  exact (Orderly.execute d.2).bind fun n => .pure (out.insert d.1.table (.ofNat n))

end Command

end TableApi
