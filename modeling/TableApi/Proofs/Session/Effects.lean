import TableApi.Proofs.Outcome
import TableApi.Proofs.Session.Transaction

/-!
# What stays of what was sent

A statement takes effect at once outside a transaction, and inside one when it is committed. So the
statements that stay can be read off the events as they went (`staying`).

* A transaction leaves all of its statements if it answers a result, and none if it answers a
  failure (`Transacted.staying_eq`).
* Statements outside a transaction stay one by one, whatever becomes of the others
  (`staying_of_isOutside`). For executes that do not wait for each other (`apart`) nothing stays
  where all of them failed, and everything where none did.
-/

namespace TableApi

/-- A statement that is sent while no transaction is open. -/
def Event.IsOutside : Event → Prop
  | .fetch inTransaction _ | .execute inTransaction _ => inTransaction = false
  | .step _ => False

/-- **The statements that stay**, of events as they went, in the order in which they come to stay.
The pending ones are those of the open transaction. -/
def staying (pending : List Statement) : List (Event × Option DatabaseError) → List Statement
  | [] => []
  | (.fetch inTransaction q, none) :: rest | (.execute inTransaction q, none) :: rest =>
    if inTransaction then staying (pending ++ [q]) rest else q :: staying pending rest
  | (.fetch _ _, some _) :: rest | (.execute _ _, some _) :: rest => staying pending rest
  | (.step .commit, none) :: rest => pending ++ staying [] rest
  | (.step .commit, some _) :: rest | (.step .beginTransaction, _) :: rest
  | (.step .rollback, _) :: rest => staying [] rest

/-- Statements that succeeded inside the transaction are pending. -/
theorem staying_allWent_append {events : List (Event × Option DatabaseError)} (h : AllWent events)
    (pending : List Statement) (rest : List (Event × Option DatabaseError)) :
    staying pending (events ++ rest) =
      staying (pending ++ events.filterMap (·.1.statement?)) rest := by
  induction events generalizing pending with
  | nil => simp
  | cons o events ih =>
    obtain ⟨⟨hinside, hwent⟩, hevents⟩ := List.forall_mem_cons.1 h
    obtain ⟨event, why⟩ := o
    dsimp only at hinside hwent
    subst hwent
    cases event with
    | step k => exact hinside.elim
    | fetch inTransaction q | execute inTransaction q =>
      obtain rfl : inTransaction = true := hinside
      rw [List.cons_append, staying, if_pos rfl, ih hevents, List.append_assoc]
      rfl

/-- **A transaction leaves all or nothing**: its statements if it answers a result, and none of them
if it answers a failure. -/
theorem Transacted.staying_eq {α : Type} {work answer : Except ApiError α}
    {sent : List (Event × Option DatabaseError)} (h : Transacted work answer sent) :
    staying [] sent = if answer.isOk then sent.filterMap (·.1.statement?) else [] := by
  cases h with
  | notBegun why => rfl
  | committed ha hevents =>
    rw [staying, staying_allWent_append hevents]
    simp [staying, Except.isOk, Except.toBool, Event.statement?]
  | notCommitted ha hevents why =>
    rw [staying, staying_allWent_append hevents]
    rfl
  | @failed why hwork events hevents event he rollback =>
    rw [staying, staying_allWent_append hevents]
    cases event with
    | step k => exact he.elim
    | fetch | execute => rfl
  | refused hwork he hevents rollback =>
    rw [staying, staying_allWent_append hevents]
    rfl

/-- The statement of an event, if it did not fail. -/
def succeeded? (o : Event × Option DatabaseError) : Option Statement :=
  if o.2.isNone then o.1.statement? else none

/-- **Statements outside a transaction** stay one by one: all that did not fail. -/
theorem staying_of_isOutside {sent : List (Event × Option DatabaseError)}
    (h : ∀ o ∈ sent, o.1.IsOutside) (pending : List Statement) :
    staying pending sent = sent.filterMap succeeded? := by
  induction sent with
  | nil => rfl
  | cons o sent ih =>
    obtain ⟨houtside, hsent⟩ := List.forall_mem_cons.1 h
    obtain ⟨event, why⟩ := o
    cases event with
    | step k => exact houtside.elim
    | fetch inTransaction q | execute inTransaction q =>
      obtain rfl : inTransaction = false := houtside
      cases why with
      | some why =>
        rw [staying, ih hsent]
        rfl
      | none =>
        rw [staying, if_neg (by simp), ih hsent]
        rfl

/-! ## Executes that do not wait for each other -/

/-- Executes outside a transaction, as they went. -/
def apart (qs : List Statement) (script : List Reply) : List (Event × Option DatabaseError) :=
  qs.mapIdx fun k q => (.execute false q, failureHeard (script.drop k))

theorem staying_apart (qs : List Statement) (script : List Reply) :
    staying [] (apart qs script) = (apart qs script).filterMap succeeded? := by
  refine staying_of_isOutside (fun o ho => ?_) []
  obtain ⟨k, hk, rfl⟩ := List.mem_mapIdx.1 ho
  rfl

/-- Nothing stays where every one of them failed. -/
theorem staying_apart_eq_nil {qs : List Statement} {script : List Reply} :
    staying [] (apart qs script) = [] ↔ ∀ o ∈ apart qs script, o.2 ≠ none := by
  rw [staying_apart, List.filterMap_eq_nil_iff]
  refine forall₂_congr fun o ho => ?_
  obtain ⟨k, hk, rfl⟩ := List.mem_mapIdx.1 ho
  dsimp only
  cases failureHeard (script.drop k) <;> simp [succeeded?, Event.statement?]

/-- So nothing stays of a single one that failed. -/
theorem staying_apart_eq_nil_of_length_le {qs : List Statement} {script : List Reply}
    (hone : qs.length ≤ 1) (hfailed : ∃ o ∈ apart qs script, o.2 ≠ none) :
    staying [] (apart qs script) = [] := by
  obtain ⟨failed, hmem, hne⟩ := hfailed
  have hcount : (apart qs script).length ≤ 1 := by simpa [apart] using hone
  obtain ⟨only, honly⟩ := List.length_eq_one_iff.1
    (Nat.le_antisymm hcount (List.length_pos_of_mem hmem))
  refine staying_apart_eq_nil.2 fun o ho => ?_
  rw [honly, List.mem_singleton] at hmem ho
  exact ho.trans hmem.symm ▸ hne

theorem staying_apart_eq {qs : List Statement} {script : List Reply}
    (h : ∀ o ∈ apart qs script, o.2 = none) : staying [] (apart qs script) = qs := by
  have hstatements : (apart qs script).filterMap succeeded? =
      (apart qs script).filterMap (·.1.statement?) := by
    refine List.filterMap_congr fun o ho => ?_
    rw [succeeded?, h o ho]
    rfl
  have hevents : (apart qs script).map Prod.fst = qs.map (.execute false) := by
    rw [apart, ← told_executes, map_fst_told]
  have hsame : (apart qs script).filterMap (·.1.statement?) =
      ((apart qs script).map Prod.fst).filterMap Event.statement? := by
    rw [List.filterMap_map]
    rfl
  rw [staying_apart, hstatements, hsame, hevents, List.filterMap_map]
  exact List.filterMap_some

end TableApi
