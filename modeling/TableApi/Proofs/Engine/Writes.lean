import TableApi.Proofs.Command.Orderly
import TableApi.Proofs.Engine.Dispatch
import TableApi.Proofs.Session.Agenda

/-!
# Writes are all or nothing

A request that inserts, saves or deletes is checked first, which sends nothing, and then does its
work in a transaction. `Engine.plan` says which work that is, or which check fails, and
`handle_of_transactional` that the engine does that and nothing else. With the work of the commands
being orderly, `handle_transacted` follows for every script of replies.
-/

namespace TableApi

/-- **The verbs that write in a transaction.** -/
def Verb.isTransactional : Verb → Bool
  | .post | .put | .delete => true
  | .get | .patch | .head | .options => false

/-- The work that a verb does in its transaction, if the body and the views pass its checks. -/
def Command.workOf (c : Command.Config) (r : Request) (body : Json) :
    Verb → Except ApiError (Work Json)
  | .post => do
    let payloads ← Payload.assign r body
    pure (insertCascade c r payloads)
  | .put => do
    let payload ← Payload.ofBody body
    pure ((fun result => .object [(r.primary.table, result)]) <$> upsertAll c r.primary payload)
  | .delete => do
    let scopes ← r.views.mapM (deleteScope c.dialect r)
    let order := Relation.deleteOrder (r.views.map View.table) r.relations
    pure (deleteAll (deletesAt c.dialect r.views scopes order))
  | v => .error (.unsupported v.name)

/-- **The plan of a request for tables**: the work of its transaction, or the first check that fails
before it. -/
def Engine.plan (e : Engine) (method path query : String) (body : Option Json) :
    Except ApiError (Work Output) :=
  match e.verb? (Text.uppered method) with
  | none => .error (.notFound ("method '" ++ Text.uppered method ++ "'"))
  | some v => do
    let r ← Request.ofParts e.context (Request.segments path) (Query.parse query) v.isWrite
    let body ← bodyFor v body
    let work ← Command.workOf (.ofSettings e.settings) r body v
    pure (.json <$> work)

namespace Command

/-- **The work of every transactional verb is orderly.** -/
theorem orderly_workOf {c : Config} {r : Request} {body : Json} {v : Verb} {work : Work Json}
    (h : workOf c r body v = .ok work) : Orderly work := by
  cases v with
  | post =>
    obtain ⟨payloads, -, h⟩ := bind_eq_ok.1 h
    obtain rfl := Except.ok.inj h
    exact orderly_insertCascade c r payloads
  | put =>
    obtain ⟨payload, -, h⟩ := bind_eq_ok.1 h
    obtain rfl := Except.ok.inj h
    exact (orderly_upsertAll c r.primary payload).map _
  | delete =>
    obtain ⟨scopes, -, h⟩ := bind_eq_ok.1 h
    obtain rfl := Except.ok.inj h
    exact orderly_deleteAll _
  | _ => simp [workOf] at h

end Command

namespace Engine

theorem orderly_plan {e : Engine} {method path query : String} {body : Option Json}
    {work : Work Output} (h : e.plan method path query body = .ok work) : Orderly work := by
  rw [plan] at h
  split at h
  · simp at h
  · obtain ⟨r, -, h⟩ := bind_eq_ok.1 h
    obtain ⟨body, -, h⟩ := bind_eq_ok.1 h
    obtain ⟨work, hwork, h⟩ := bind_eq_ok.1 h
    obtain rfl := Except.ok.inj h
    exact (Command.orderly_workOf hwork).map _

/-- What a transactional verb does: its checks, and then its work in a transaction. -/
theorem runVerb_of_transactional {v : Verb} (hv : v.isTransactional = true) (c : Command.Config)
    (r : Request) (body : Json) :
    runVerb c v r body =
      Work.ofExcept (Command.workOf c r body v) >>= fun work =>
        Work.transaction (.json <$> work) := by
  cases v with
  | post =>
    rw [runVerb, Command.workOf, Work.ofExcept_bind, bind_assoc]
    refine bind_congr fun payloads => ?_
    rw [Command.post, Work.map_transaction]
    rfl
  | put =>
    rw [runVerb, Command.workOf, Work.ofExcept_bind, bind_assoc, Command.put, map_bind]
    refine bind_congr fun payload => ?_
    rw [← map_eq_pure_bind, Work.map_transaction, Work.map_transaction]
    rfl
  | delete =>
    rw [runVerb, Command.workOf, Work.ofExcept_bind, bind_assoc, Command.delete, map_bind]
    refine bind_congr fun scopes => ?_
    rw [Work.map_transaction]
    rfl
  | _ => simp [Verb.isTransactional] at hv

/-- **The engine follows the plan.** -/
theorem handle_of_transactional {e : Engine} {method path : String} {v : Verb}
    (hv : v.isTransactional = true) (hmethod : Text.uppered method = v.name)
    (hmodel : Request.modelOf? e.context (Request.segments path) = none) (query : String)
    (body : Option Json) :
    e.handle method path query body =
      Work.ofExcept (e.plan method path query body) >>= Work.transaction := by
  -- the checks of the body and the verb come after the views are read
  have hserve : ∀ r : Request, e.serve v body (.views r) =
      Work.ofExcept (bodyFor v body >>= fun body =>
        Command.workOf (.ofSettings e.settings) r body v >>= fun work => pure (.json <$> work)) >>=
          Work.transaction := by
    intro r
    rw [Work.ofExcept_bind, bind_assoc]
    refine bind_congr fun body => ?_
    rw [runVerb_of_transactional hv, Work.ofExcept_bind, bind_assoc]
    rfl
  cases hfound : e.verb? (Text.uppered method) with
  | none =>
    rw [handle_of_none hfound, plan, hfound]
    rfl
  | some v' =>
    obtain rfl : v = v' := by
      have hnamed := (verb?_eq_some.1 hfound).1
      rw [hmethod, Verb.ofMethod?_name] at hnamed
      exact Option.some.inj hnamed
    have hoptions : v ≠ .options := by
      rintro rfl
      simp [Verb.isTransactional] at hv
    rw [handle_of_some hfound hoptions, Request.parse_of_modelOf?_eq_none hmodel, plan, hfound]
    dsimp only
    rw [Work.ofExcept_bind, bind_assoc]
    cases Request.ofParts e.context (Request.segments path) (Query.parse query) v.isWrite with
    | error why => rfl
    | ok r => exact hserve r

section Transactional

variable {e : Engine} {method path query : String} {body : Option Json} {v : Verb}
  {turns : List Turn}
  (hv : v.isTransactional = true) (hmethod : Text.uppered method = v.name)
  (hmodel : Request.modelOf? e.context (Request.segments path) = none)

include hv hmethod hmodel

/-- A check that fails before the transaction sends nothing. -/
theorem on_handle_of_refused {why : ApiError}
    (hplan : e.plan method path query body = .error why) (s : Session) :
    (e.handle method path query body).on s = (.error why, s) := by
  rw [handle_of_transactional hv hmethod hmodel, hplan]
  rfl

/-- Otherwise the transaction is all that is done. -/
theorem on_handle_of_planned {work : Work Output}
    (hplan : e.plan method path query body = .ok work) (s : Session) :
    (e.handle method path query body).on s = (Work.transaction work).on s := by
  rw [handle_of_transactional hv hmethod hmodel, hplan]
  rfl

/-- What the transaction sends, where its work follows an agenda. -/
theorem follows_of_planned {work : Work Output} {script : List Reply} {agenda : Agenda}
    (hplan : e.plan method path query body = .ok work)
    (hwork : FollowsOn work (.begun script turns) agenda) :
    let run := (e.handle method path query body).on ⟨script, [], false, turns⟩
    ∃ sent, Follows agenda (work.on (.begun script turns)).1 sent ∧
      Enclosed (work.on (.begun script turns)).1 sent run.1 (told script run.2.log) := by
  intro run
  have hrun : run = (Work.transaction work).on ⟨script, [], false, turns⟩ :=
    on_handle_of_planned hv hmethod hmodel hplan _
  obtain ⟨events, hsession, hfollows⟩ := hwork
  rw [hrun]
  exact ⟨_, hfollows, enclosed_transaction hsession⟩

end Transactional

/-- **The plan of an allowed request for tables** is the work of its verb. -/
theorem plan_of_parse {e : Engine} {method path query : String} {v : Verb} {r : Request}
    (hmethod : Text.uppered method = v.name)
    (hallows : e.settings.allows (Text.uppered method) = true)
    (hparse : Request.parse e.context (Text.uppered method) path query v.isWrite = .ok (.views r))
    (body : Option Json) :
    e.plan method path query body =
      bodyFor v body >>= fun b =>
        (Command.workOf (.ofSettings e.settings) r b v).map (.json <$> ·) := by
  rw [plan, verb?_of_name hmethod hallows]
  dsimp only
  rw [Request.ofParts_of_parse hparse]
  rfl

/-- **What a request comes to** before anything is committed: its result, or the first failure of
a check or a statement. -/
def outcome (e : Engine) (method path query : String) (body : Option Json) (script : List Reply)
    (turns : List Turn) : Except ApiError Output :=
  e.plan method path query body >>= fun work => (work.on (.begun script turns)).1

/-- **Writes are all or nothing**, for every request for tables and every script of replies. A check
that fails before the transaction sends nothing. Otherwise the transaction goes as `Transacted`
says: it does not begin, or its statements are followed by one commit or one rollback, by a rollback
as soon as a statement or a check fails, and that failure is answered. A commit is sent exactly if
the transaction began and no check and no statement failed, and the answer is a success exactly if
the commit succeeded. -/
theorem handle_transacted {e : Engine} {method path : String} {v : Verb}
    (hv : v.isTransactional = true) (hmethod : Text.uppered method = v.name)
    (hmodel : Request.modelOf? e.context (Request.segments path) = none) (query : String)
    (body : Option Json) (script : List Reply) (turns : List Turn) :
    let run := (e.handle method path query body).on ⟨script, [], false, turns⟩
    let sent := told script run.2.log
    (∀ why, e.plan method path query body = .error why → run.1 = .error why ∧ run.2.log = []) ∧
      (∀ work, e.plan method path query body = .ok work →
        Transacted (e.outcome method path query body script turns) run.1 sent) ∧
      (.step .commit ∈ run.2.log ↔ (.step .beginTransaction, none) ∈ sent ∧
        ∃ a, e.outcome method path query body script turns = .ok a) ∧
      ((∃ a, run.1 = .ok a) ↔ (.step .commit, none) ∈ sent) := by
  rw [outcome]
  cases hplan : e.plan method path query body with
  | error why =>
    rw [on_handle_of_refused hv hmethod hmodel hplan]
    refine ⟨fun why' h => ?_, by simp, ?_, by simp [told]⟩
    · obtain rfl := Except.error.inj h
      exact ⟨rfl, rfl⟩
    · simp [told, bind, Except.bind]
  | ok work =>
    rw [on_handle_of_planned hv hmethod hmodel hplan]
    have hrun := transacted_transaction (orderly_plan hplan) script turns
    have hcommit := hrun.commit_mem_iff
    rw [map_fst_told] at hcommit
    exact ⟨by simp, fun _ _ => hrun, hcommit, hrun.ok_iff⟩

/-- A delete of one row, committed: three events, and a success. -/
theorem handle_transacted_delete :
    let table : Table := { name := "t", primaryKey := some "id", columns := [] }
    let settings : Settings :=
      { dialect := .sqlite, mainDb := "d", databases := ["d"], allowedMethods := ["DELETE"] }
    let e : Engine := ⟨settings, .empty, Catalog.empty.insertTable "d" table⟩
    let run := (e.handle "delete" "/t/7" "" none).on ⟨[.count 1], [], false, []⟩
    run.2.log.length = 3 ∧
      ((∃ a, run.1 = .ok a) ↔ (.step .commit, none) ∈ told [.count 1] run.2.log) := by
  intro table settings e run
  have hmethod : Text.uppered "delete" = Verb.delete.name := by decide +kernel
  have hmodel : Request.modelOf? e.context (Request.segments "/t/7") = none := by
    cases Request.segments "/t/7" <;> rfl
  have hrun := handle_transacted (v := .delete) rfl hmethod hmodel "" none [.count 1] []
  exact ⟨by decide +kernel, hrun.2.2.2⟩

end Engine

end TableApi
