import TableApi.Proofs.Session.Run

/-!
# All or nothing

The work of a transaction stops where a statement or a check of its own fails (`Orderly`). What
follows for the transaction around it, with every step of it free to fail, is `Transacted`: nothing
is committed unless the work succeeded, and a failure of the work is what is answered.

* `Course` — how work goes, as a relation of its result and what was told of its statements.
* `Orderly` — work that goes so on every session with an open transaction, kept by sequencing and by
  loops. Commands are shown to be orderly by following how they are written.
* `Enclosed` — what a transaction adds to any work that leaves it open (`enclosed_transaction`).
* `transacted_transaction` — a transaction of orderly work.
-/

namespace TableApi

variable {α β : Type} {turns : List Turn}

/-! ## How work goes -/

/-- A statement that is sent while a transaction is open. -/
def Event.IsInside : Event → Prop
  | .fetch inTransaction _ | .execute inTransaction _ => inTransaction = true
  | .step _ => False

/-- A check of the request failed: it is the request, not the database, that is at fault. -/
def ApiError.IsRefusal : ApiError → Prop
  | .badRequest _ | .filter _ => True
  | _ => False

/-- Statements inside the transaction, all of which succeeded. -/
def AllWent (events : List (Event × Option DatabaseError)) : Prop :=
  ∀ o ∈ events, o.1.IsInside ∧ o.2 = none

@[simp] theorem allWent_nil : AllWent [] := by simp [AllWent]

theorem AllWent.append {a b : List (Event × Option DatabaseError)} (ha : AllWent a)
    (hb : AllWent b) : AllWent (a ++ b) :=
  List.forall_mem_append.2 ⟨ha, hb⟩

/-- **How work goes inside a transaction.** -/
inductive Course : Except ApiError α → List (Event × Option DatabaseError) → Prop
  /-- It has a result, and every statement succeeded. -/
  | finished {a : α} {events} (h : AllWent events) : Course (.ok a) events
  /-- A statement failed. It is the last one, and the work fails as it did. -/
  | failed {events} (h : AllWent events) {e : Event} (he : e.IsInside) (why : DatabaseError) :
      Course (.error (.database why)) (events ++ [(e, some why)])
  /-- A check failed. No statement follows it, and none failed before it. -/
  | refused {events} (h : AllWent events) {e : ApiError} (he : e.IsRefusal) :
      Course (.error e) events

/-- Statements that succeeded, before others. -/
theorem Course.after {r : Except ApiError α} {a b : List (Event × Option DatabaseError)}
    (ha : AllWent a) (h : Course r b) : Course r (a ++ b) := by
  cases h with
  | finished hb => exact .finished (ha.append hb)
  | failed hb he why =>
    rw [← List.append_assoc]
    exact .failed (ha.append hb) he why
  | refused hb he => exact .refused (ha.append hb) he

/-- A failure does not depend on what the work would have given. -/
theorem Course.error {e : ApiError} {events : List (Event × Option DatabaseError)}
    (h : Course (.error e : Except ApiError α) events) :
    Course (.error e : Except ApiError β) events := by
  cases h with
  | failed h he why => exact .failed h he why
  | refused h he => exact .refused h he

/-! ## Orderly work -/

/-- **Orderly work.** On a session with an open transaction it sends some statements, goes its
course, and leaves the transaction open. -/
def Orderly (w : Work α) : Prop :=
  ∀ s : Session, s.inTransaction = true → ∃ events,
    (w.on s).2 = ⟨left s.script events, s.log ++ events, true, s.turns⟩ ∧
      Course (w.on s).1 (told s.script events)

namespace Orderly

theorem of_silent {w : Work α} {r : Except ApiError α} (hw : ∀ s, w.on s = (r, s))
    (hr : ∀ e, r = .error e → e.IsRefusal) : Orderly w := by
  rintro ⟨script, log, _⟩ rfl
  refine ⟨[], ?_, ?_⟩
  · rw [hw, List.append_nil]
    rfl
  · rw [hw]
    cases hres : r with
    | ok a => exact .finished allWent_nil
    | error e => exact .refused allWent_nil (hr e hres)

theorem pure (a : α) : Orderly (Pure.pure a : Work α) :=
  of_silent (Work.on_pure a) (by simp)

theorem fail {e : ApiError} (he : e.IsRefusal) : Orderly (Work.fail e : Work α) :=
  of_silent (Work.on_fail e) (by simpa using he)

theorem ofExcept {x : Except ApiError α} (hx : ∀ e, x = .error e → e.IsRefusal) :
    Orderly (Work.ofExcept x) :=
  of_silent (Work.on_ofExcept x) hx

theorem of_event {w : Work α} (event : Event) (hevent : event.IsInside)
    (hw : ∀ s : Session, s.inTransaction = true → ∃ a,
      w.on s = (event.answer s.script a, s.after event)) : Orderly w := by
  intro s hs
  obtain ⟨a, hrun⟩ := hw s hs
  refine ⟨[event], ?_, ?_⟩
  · rw [hrun, Session.after, hs]
    rfl
  · rw [hrun, told, told, Event.answer]
    cases hheard : (event.heard s.script).1 with
    | some why => exact .failed allWent_nil hevent why
    | none => exact .finished (List.forall_mem_singleton.2 ⟨hevent, rfl⟩)

@[simp] theorem fetch (q : Statement) : Orderly (Work.fetch q) := by
  refine of_event (.fetch true q) rfl fun s hs => ?_
  exact ⟨_, by simpa only [hs] using Work.on_fetch q s⟩

@[simp] theorem execute (q : Statement) : Orderly (Work.execute q) := by
  refine of_event (.execute true q) rfl fun s hs => ?_
  simpa only [hs] using Work.on_execute q s

/-- **Orderly work after orderly work.** -/
theorem bind {w : Work α} {f : α → Work β} (hw : Orderly w) (hf : ∀ a, Orderly (f a)) :
    Orderly (w >>= f) := by
  intro s hs
  obtain ⟨events, hsession, hcourse⟩ := hw s hs
  rw [Work.on_bind]
  cases hrun : w.on s with
  | mk r s' =>
    rw [hrun] at hsession hcourse
    dsimp only at hsession hcourse
    subst hsession
    cases r with
    | error e => exact ⟨events, rfl, hcourse.error⟩
    | ok a =>
      -- the second work runs on what the first one left, in the same transaction
      obtain ⟨more, hsession, hcourse'⟩ :=
        hf a ⟨left s.script events, s.log ++ events, true, s.turns⟩ rfl
      cases hcourse with
      | finished hevents =>
        refine ⟨events ++ more, ?_, ?_⟩
        · dsimp only
          rw [hsession, left_append, List.append_assoc]
        · rw [told_append]
          exact hcourse'.after hevents

theorem map {w : Work α} (hw : Orderly w) (f : α → β) : Orderly (f <$> w) := by
  rw [map_eq_pure_bind]
  exact hw.bind fun a => pure (f a)

/-- **A loop of orderly work.** -/
theorem foldlM {f : β → α → Work β} {xs : List α} (hf : ∀ b a, Orderly (f b a)) (b : β) :
    Orderly (xs.foldlM f b) := by
  induction xs generalizing b with
  | nil => exact pure b
  | cons x xs ih =>
    rw [List.foldlM_cons]
    exact (hf b x).bind ih

/-- Orderly work for each of several values. -/
theorem mapM {f : α → Work β} {xs : List α} (hf : ∀ a, Orderly (f a)) : Orderly (xs.mapM f) := by
  induction xs with
  | nil => exact pure []
  | cons x xs ih =>
    rw [List.mapM_cons]
    exact (hf x).bind fun b => ih.bind fun bs => pure (b :: bs)

end Orderly

/-! ## Transactions -/

/-- **How a transaction goes**, given what its work came to: its answer, and what was told. -/
inductive Transacted (work : Except ApiError α) :
    Except ApiError α → List (Event × Option DatabaseError) → Prop
  /-- It does not begin, and nothing follows. -/
  | notBegun (why : DatabaseError) :
      Transacted work (.error (.database why)) [(.step .beginTransaction, some why)]
  /-- The work succeeded, and is committed. -/
  | committed {a : α} (ha : work = .ok a) {events} (h : AllWent events) :
      Transacted work (.ok a)
        ((.step .beginTransaction, none) :: (events ++ [(.step .commit, none)]))
  /-- The work succeeded, and the commit failed. -/
  | notCommitted {a : α} (ha : work = .ok a) {events} (h : AllWent events) (why : DatabaseError) :
      Transacted work (.error (.database why))
        ((.step .beginTransaction, none) :: (events ++ [(.step .commit, some why)]))
  /-- A statement failed. It is rolled back, or not, and its failure is answered. -/
  | failed {why : DatabaseError} (hwork : work = .error (.database why)) {events}
      (h : AllWent events) {e : Event} (he : e.IsInside) (rollback : Option DatabaseError) :
      Transacted work (.error (.database why)) ((.step .beginTransaction, none) ::
        (events ++ [(e, some why), (.step .rollback, rollback)]))
  /-- A check failed. It is rolled back, or not, and the check's failure is answered. -/
  | refused {e : ApiError} (hwork : work = .error e) (he : e.IsRefusal) {events}
      (h : AllWent events) (rollback : Option DatabaseError) :
      Transacted work (.error e)
        ((.step .beginTransaction, none) :: (events ++ [(.step .rollback, rollback)]))

/-- A session in which a transaction has begun. -/
def Session.begun (script : List Reply) (turns : List Turn) : Session :=
  ⟨script, [.step .beginTransaction], true, turns⟩

/-- The end of a transaction after a result: a commit. -/
theorem Work.on_close_ok (a : α) (s : Session) :
    (Work.close (.ok a)).on s =
      ((Event.step .commit).answer s.script a,
        { s.after (.step .commit) with inTransaction := false }) := by
  have hclose : Work.close (.ok a) =
      setInTransaction false >>= fun _ => step .commit >>= fun _ => pure a := rfl
  rw [hclose, on_bind, on_setInTransaction]
  dsimp only
  rw [on_bind, on_step, Event.answer, Event.answer]
  cases ((Event.step .commit).heard s.script).1 <;> rfl

/-- The end of a transaction after a failure: a rollback, and the failure. -/
theorem Work.on_close_error (e : ApiError) (s : Session) :
    (Work.close (.error e : Except ApiError α)).on s =
      (.error e, { s.after (.step .rollback) with inTransaction := false }) := by
  have hclose : Work.close (.error e : Except ApiError α) =
      setInTransaction false >>= fun _ => attempt (step .rollback) >>= fun _ => fail e := rfl
  rw [hclose, on_bind, on_setInTransaction]
  dsimp only
  rw [on_bind, on_attempt, on_step]
  rfl

/-- What is told of a transaction that began: its statements, and its last step. -/
theorem told_begun {script : List Reply}
    (h : ((Event.step .beginTransaction).heard script).1 = none) (events : List Event) (k : Step) :
    told script (.step .beginTransaction :: events ++ [.step k]) =
      (.step .beginTransaction, none) :: (told script events ++
        [(.step k, ((Event.step k).heard (left script events)).1)]) := by
  rw [List.cons_append, told, h, heard_step_of_none h, told_append]
  rfl

/-- **A transaction that does not begin** does nothing more. -/
theorem Work.on_transaction_of_some {script : List Reply} {why : DatabaseError}
    (h : ((Event.step .beginTransaction).heard script).1 = some why) (w : Work α) :
    (transaction w).on ⟨script, [], false, turns⟩ =
      (.error (.database why),
        Session.after ⟨script, [], false, turns⟩ (.step .beginTransaction)) := by
  have htransaction : transaction w = step .beginTransaction >>= fun _ =>
      setInTransaction true >>= fun _ => attempt w >>= fun r => close r := rfl
  rw [htransaction, on_bind, on_step, Event.answer, h]
  rfl

/-- **A transaction that begins** is its work, and then its end. -/
theorem Work.on_transaction_of_none {script : List Reply}
    (h : ((Event.step .beginTransaction).heard script).1 = none) (w : Work α) :
    (transaction w).on ⟨script, [], false, turns⟩ =
      (close (w.on (.begun script turns)).1).on (w.on (.begun script turns)).2 := by
  have htransaction : transaction w = step .beginTransaction >>= fun _ =>
      setInTransaction true >>= fun _ => attempt w >>= fun r => close r := rfl
  have hsession : ({ (⟨script, [], false, turns⟩ : Session).after (.step .beginTransaction) with
      inTransaction := true } : Session) = .begun script turns := by
    rw [Session.after, heard_step_of_none h]
    rfl
  rw [htransaction, on_bind, on_step, Event.answer, h]
  dsimp only [Option.elim]
  rw [on_bind, on_setInTransaction, hsession]
  dsimp only
  rw [on_bind, on_attempt]

/-- **What a transaction adds to its work**, given what the work came to and what was told of its
statements: its answer, and all that is told. -/
inductive Enclosed (work : Except ApiError α) (sent : List (Event × Option DatabaseError)) :
    Except ApiError α → List (Event × Option DatabaseError) → Prop
  /-- It does not begin, and nothing follows. -/
  | notBegun (why : DatabaseError) :
      Enclosed work sent (.error (.database why)) [(.step .beginTransaction, some why)]
  /-- The work succeeded, and is committed. -/
  | committed {a : α} (ha : work = .ok a) :
      Enclosed work sent (.ok a)
        ((.step .beginTransaction, none) :: (sent ++ [(.step .commit, none)]))
  /-- The work succeeded, and the commit failed. -/
  | notCommitted {a : α} (ha : work = .ok a) (why : DatabaseError) :
      Enclosed work sent (.error (.database why))
        ((.step .beginTransaction, none) :: (sent ++ [(.step .commit, some why)]))
  /-- The work failed. It is rolled back, or not, and its failure is answered. -/
  | rolledBack {e : ApiError} (he : work = .error e) (rollback : Option DatabaseError) :
      Enclosed work sent (.error e)
        ((.step .beginTransaction, none) :: (sent ++ [(.step .rollback, rollback)]))

/-- **A transaction**, on a fresh session and for every script of replies, of work that leaves the
transaction open. -/
theorem enclosed_transaction {w : Work α} {script : List Reply} {events : List Event}
    (hw : (w.on (.begun script turns)).2 =
      ⟨left script events, .step .beginTransaction :: events, true, turns⟩) :
    Enclosed (w.on (.begun script turns)).1 (told script events)
      ((Work.transaction w).on ⟨script, [], false, turns⟩).1
      (told script ((Work.transaction w).on ⟨script, [], false, turns⟩).2.log) := by
  cases hbegin : ((Event.step .beginTransaction).heard script).1 with
  | some why =>
    rw [Work.on_transaction_of_some hbegin, Session.after, List.nil_append, told, told, hbegin]
    exact .notBegun why
  | none =>
    rw [Work.on_transaction_of_none hbegin, hw]
    cases hwork : (w.on (.begun script turns)).1 with
    | ok a =>
      rw [Work.on_close_ok]
      dsimp only [Session.after]
      rw [told_begun hbegin, Event.answer]
      cases ((Event.step .commit).heard (left script events)).1 with
      | none => exact .committed rfl
      | some why => exact .notCommitted rfl why
    | error e =>
      rw [Work.on_close_error]
      dsimp only [Session.after]
      rw [told_begun hbegin]
      exact .rolledBack rfl _

/-- Work that goes its course, in a transaction. -/
theorem Course.transacted {work answer : Except ApiError α}
    {sent all : List (Event × Option DatabaseError)} (hcourse : Course work sent)
    (h : Enclosed work sent answer all) : Transacted work answer all := by
  cases h with
  | notBegun why => exact .notBegun why
  | committed ha =>
    rw [ha] at hcourse
    obtain ⟨hevents⟩ := hcourse
    exact .committed ha hevents
  | notCommitted ha why =>
    rw [ha] at hcourse
    obtain ⟨hevents⟩ := hcourse
    exact .notCommitted ha hevents why
  | rolledBack he rollback =>
    rw [he] at hcourse
    -- the course splits what was told at the statement that failed, if one did
    cases hcourse with
    | failed hevents hinside why =>
      rw [List.append_assoc]
      exact .failed he hevents hinside rollback
    | refused hevents hrefusal => exact .refused he hrefusal hevents rollback

/-- **A transaction of orderly work**, on a fresh session: what it answers and what it sends, for
every script of replies. -/
theorem transacted_transaction {w : Work α} (hw : Orderly w) (script : List Reply)
    (turns : List Turn) :
    Transacted (w.on (.begun script turns)).1 ((Work.transaction w).on ⟨script, [], false, turns⟩).1
      (told script ((Work.transaction w).on ⟨script, [], false, turns⟩).2.log) := by
  obtain ⟨events, hafter, hcourse⟩ := hw (.begun script turns) rfl
  exact hcourse.transacted (enclosed_transaction hafter)

/-! ## When a transaction is committed -/

/-- No step of a transaction is among the statements inside. -/
theorem AllWent.step_not_mem {events : List (Event × Option DatabaseError)} (h : AllWent events)
    (k : Step) (why : Option DatabaseError) : (.step k, why) ∉ events :=
  fun hmem => (h _ hmem).1

namespace Transacted

variable {work answer : Except ApiError α} {sent : List (Event × Option DatabaseError)}

/-- **A commit is attempted exactly if the transaction began and its work succeeded.** -/
theorem commit_mem_iff (h : Transacted work answer sent) :
    .step .commit ∈ sent.map Prod.fst ↔
      (.step .beginTransaction, none) ∈ sent ∧ ∃ a, work = .ok a := by
  have hcommit : ∀ {events}, AllWent events → .step .commit ∉ events.map Prod.fst := by
    intro events hevents hmem
    obtain ⟨⟨e, why⟩, hin, rfl⟩ := List.mem_map.1 hmem
    exact hevents.step_not_mem .commit why hin
  cases h with
  | notBegun why => simp
  | committed ha hevents => simp [ha]
  | notCommitted ha hevents why => simp [ha]
  | @failed why hwork events hevents e he rollback =>
    have hne : Event.step .commit ≠ e := by
      rintro rfl
      exact he
    simp [hwork, hcommit hevents, hne]
  | refused hwork he hevents rollback => simp [hwork, hcommit hevents]

/-- **The answer is a success exactly if a commit succeeded.** -/
theorem ok_iff (h : Transacted work answer sent) :
    (∃ a, answer = .ok a) ↔ (.step .commit, none) ∈ sent := by
  cases h with
  | notBegun why => simp
  | committed ha hevents => simp
  | notCommitted ha hevents why => simp [hevents.step_not_mem]
  | failed hwork hevents he rollback => simp [hevents.step_not_mem]
  | refused hwork he hevents rollback => simp [hevents.step_not_mem]

end Transacted

end TableApi
