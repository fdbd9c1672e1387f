import Mathlib.Data.List.Basic
import TableApi.Session

/-!
# Runs of work

Work is a function on sessions (`Work.on`). Here is what one event does to a session:

* `Event.heard` — what a script of replies has for an event: whether it fails, and the replies that
  are left. A statement takes the next reply, whatever it is; a step of a transaction takes a
  failure that is kept for it and nothing else.
* `told` — the events of a log, each with how it failed, if it did. It is read off a script and a
  log alone.
* `Session.after` — the session after an event. Fetching, executing and stepping are each one event
  (`on_fetch`, `on_execute_eq`, `on_step`).
-/

namespace TableApi

/-- The statement of an event, if it has one. -/
def Event.statement? : Event → Option Statement
  | .fetch _ q | .execute _ q => some q
  | .step _ => none

/-! ## Scripts -/

/-- **What a script has for an event**: how the event fails, if it does, and the replies left. -/
def Event.heard : Event → List Reply → Option DatabaseError × List Reply
  | .step k, .failure (some k') e :: rest =>
    if k' = k then (some e, rest) else (none, .failure (some k') e :: rest)
  | .step _, script => (none, script)
  | .fetch _ _, .failure _ e :: rest | .execute _ _, .failure _ e :: rest => (some e, rest)
  | .fetch _ _, script | .execute _ _, script => (none, script.tail)

/-- The replies that are left after events. -/
def left (script : List Reply) (events : List Event) : List Reply :=
  events.foldl (fun script e => (e.heard script).2) script

/-- **Events as they went**: each with how it failed, if it did. -/
def told : List Reply → List Event → List (Event × Option DatabaseError)
  | _, [] => []
  | script, e :: events => (e, (e.heard script).1) :: told (e.heard script).2 events

theorem left_append (script : List Reply) (a b : List Event) :
    left script (a ++ b) = left (left script a) b :=
  List.foldl_append

theorem told_append (script : List Reply) (a b : List Event) :
    told script (a ++ b) = told script a ++ told (left script a) b := by
  induction a generalizing script with
  | nil => rfl
  | cons e a ih =>
    rw [List.cons_append, told, ih, told, List.cons_append]
    rfl

/-- The events of what was told are the log. -/
@[simp] theorem map_fst_told (script : List Reply) (events : List Event) :
    (told script events).map Prod.fst = events := by
  induction events generalizing script with
  | nil => rfl
  | cons e events ih => rw [told, List.map_cons, ih]

/-- A step that does not fail takes no reply. -/
theorem heard_step_of_none {k : Step} {script : List Reply}
    (h : ((Event.step k).heard script).1 = none) : ((Event.step k).heard script).2 = script := by
  dsimp only [Event.heard] at h ⊢
  split at h
  · split at h
    · simp at h
    · next hk => simp [hk]
  · rfl
  all_goals simp_all

/-- The result of an event: how it fails, or else a value. -/
def Event.answer {α : Type} (e : Event) (script : List Reply) (a : α) : Except ApiError α :=
  (e.heard script).1.elim (.ok a) fun why => .error (.database why)

/-- The rows that a script has for a query: those of its next reply, or none. -/
def rowsHeard : List Reply → List Row
  | .rows rs :: _ => rs
  | _ => []

/-- How many rows a script says that a statement changed: the count of its next reply, or one. -/
def countHeard : List Reply → Nat
  | .count n :: _ => n
  | _ => 1

/-- How a script says that a statement failed: its next reply, if that is a failure. -/
def failureHeard : List Reply → Option DatabaseError
  | .failure _ e :: _ => some e
  | _ => none

/-- **What a script says of a statement**: how it failed, by the next reply, or else what that reply
is read as. -/
def heardAs {α : Type} (value : List Reply → α) (script : List Reply) : Except ApiError α :=
  (failureHeard script).elim (.ok (value script)) fun why => .error (.database why)

theorem heard_fetch (inTransaction : Bool) (q : Statement) (script : List Reply) :
    (Event.fetch inTransaction q).heard script = (failureHeard script, script.tail) := by
  cases script with
  | nil => rfl
  | cons reply rest => cases reply <;> rfl

theorem heard_execute (inTransaction : Bool) (q : Statement) (script : List Reply) :
    (Event.execute inTransaction q).heard script = (failureHeard script, script.tail) := by
  cases script with
  | nil => rfl
  | cons reply rest => cases reply <;> rfl

/-- **Executes as they went**: each by its own reply. -/
theorem told_executes (inTransaction : Bool) (qs : List Statement) (script : List Reply) :
    told script (qs.map (.execute inTransaction)) =
      qs.mapIdx fun k q => (.execute inTransaction q, failureHeard (script.drop k)) := by
  induction qs generalizing script with
  | nil => rfl
  | cons q qs ih =>
    rw [List.map_cons, told, heard_execute, ih, List.mapIdx_cons]
    simp

/-- The session after an event. -/
def Session.after (s : Session) (e : Event) : Session :=
  { s with script := (e.heard s.script).2, log := s.log ++ [e] }

/-! ## Work -/

namespace Work

variable {α β : Type}

/-- **The result of work on a session, and the session afterwards.** -/
def on (w : Work α) (s : Session) : Except ApiError α × Session :=
  Id.run (StateT.run (ExceptT.run w) s)

@[simp] theorem on_pure (a : α) (s : Session) : (pure a : Work α).on s = (.ok a, s) := rfl

@[simp] theorem on_fail (e : ApiError) (s : Session) : (fail e : Work α).on s = (.error e, s) := rfl

@[simp] theorem on_ofExcept (x : Except ApiError α) (s : Session) : (ofExcept x).on s = (x, s) := by
  cases x <;> rfl

/-- Work after work: it runs on what the first one leaves, if that succeeds. -/
theorem on_bind (w : Work α) (f : α → Work β) (s : Session) :
    (w >>= f).on s =
      match w.on s with
      | (.ok a, s') => (f a).on s'
      | (.error e, s') => (.error e, s') := by
  dsimp only [on, ExceptT.run, StateT.run, Id.run]
  simp only [bind, ExceptT.bind, ExceptT.mk, StateT.bind, ExceptT.bindCont]
  cases w s with
  | mk r s' => cases r <;> rfl

theorem on_map (f : α → β) (w : Work α) (s : Session) :
    (f <$> w).on s = ((w.on s).1.map f, (w.on s).2) := by
  rw [map_eq_pure_bind, on_bind]
  cases w.on s with
  | mk r s' => cases r <;> rfl

theorem on_bind_ofExcept (w : Work α) (f : α → Except ApiError β) (s : Session) :
    (w >>= fun a => ofExcept (f a)).on s = ((w.on s).1 >>= f, (w.on s).2) := by
  rw [on_bind]
  cases w.on s with
  | mk r s' =>
    cases r with
    | ok a => exact on_ofExcept ..
    | error e => rfl

@[simp] theorem on_attempt (w : Work α) (s : Session) :
    (attempt w).on s = (.ok (w.on s).1, (w.on s).2) := rfl

@[simp] theorem on_setInTransaction (b : Bool) (s : Session) :
    (setInTransaction b).on s = (.ok (), { s with inTransaction := b }) := rfl

/-- Work that does the same on every session is the same. -/
theorem ext {w w' : Work α} (h : ∀ s, w.on s = w'.on s) : w = w' :=
  funext h

/-- A check and then another one, before work. -/
theorem ofExcept_bind (x : Except ApiError α) (f : α → Except ApiError β) :
    ofExcept (x >>= f) = ofExcept x >>= fun a => ofExcept (f a) := by
  cases x <;> rfl

/-- The end of a transaction does not look at the result. -/
theorem map_close (f : α → β) (r : Except ApiError α) : f <$> close r = close (r.map f) := by
  cases r with
  | ok a => simp only [close, map_bind, map_pure, Except.map]
  | error e =>
    simp only [close, map_bind, Except.map]
    rfl

theorem map_transaction (f : α → β) (w : Work α) : f <$> transaction w = transaction (f <$> w) := by
  have hwork : f <$> (attempt w >>= fun r => close r) = attempt (f <$> w) >>= fun r => close r := by
    refine ext fun s => ?_
    rw [map_bind, on_bind, on_bind, on_attempt, on_attempt, on_map]
    dsimp only
    rw [map_close]
  simp only [transaction, map_bind] at hwork ⊢
  rw [hwork]

/-! ## Events -/

/-- **A step of a transaction is one event**, and fails as the script says. -/
theorem on_step (k : Step) (s : Session) :
    (step k).on s = ((Event.step k).answer s.script (), s.after (.step k)) := by
  obtain ⟨script, log, inTransaction, turns⟩ := s
  cases script with
  | nil => rfl
  | cons r rest =>
    cases r with
    | failure k' e =>
      cases k' with
      | none => rfl
      | some k' =>
        have hstep : (step k).on ⟨.failure (some k') e :: rest, log, inTransaction, turns⟩ =
            (if k' = k then do
              set (⟨rest, log ++ [.step k], inTransaction, turns⟩ : Session)
              fail (.database e)
            else pure () : Work Unit).on
              ⟨.failure (some k') e :: rest, log ++ [.step k], inTransaction, turns⟩ := rfl
        -- a failure that is kept for another step is left in the script
        rw [hstep, Session.after, Event.answer, Event.heard]
        by_cases hk : k' = k
        · rw [if_pos hk, if_pos hk]
          rfl
        · rw [if_neg hk, if_neg hk]
          rfl
    | _ => rfl

/-- **A fetch is one event**: it fails as the script says, and otherwise has the rows of the next
reply. -/
theorem on_fetch (q : Statement) (s : Session) :
    (fetch q).on s =
      ((Event.fetch s.inTransaction q).answer s.script (rowsHeard s.script),
        s.after (.fetch s.inTransaction q)) := by
  obtain ⟨script, log, inTransaction, turns⟩ := s
  cases script with
  | nil => rfl
  | cons r rest => cases r <;> rfl

/-- **So is an execute**, and otherwise it has the count of the next reply. -/
theorem on_execute_eq (q : Statement) (s : Session) :
    (execute q).on s =
      ((Event.execute s.inTransaction q).answer s.script (countHeard s.script),
        s.after (.execute s.inTransaction q)) := by
  obtain ⟨script, log, inTransaction, turns⟩ := s
  cases script with
  | nil => rfl
  | cons r rest => cases r <;> rfl

/-- It has some count, whatever the reply is. -/
theorem on_execute (q : Statement) (s : Session) :
    ∃ n, (execute q).on s =
      ((Event.execute s.inTransaction q).answer s.script n,
        s.after (.execute s.inTransaction q)) :=
  ⟨countHeard s.script, on_execute_eq q s⟩

end Work

end TableApi
