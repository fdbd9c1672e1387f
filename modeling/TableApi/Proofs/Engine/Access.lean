import TableApi.Proofs.Command.Scopes
import TableApi.Proofs.Engine.Writes
import TableApi.Proofs.Session.All
import TableApi.Proofs.Text.Upper

/-!
# Who may write, and what is read

What the engine sends to the database depends on the method first (`Engine.Accesses`). Anything but
a plain fetch is sent for a write verb that the settings allow; a read sends the selects of its
views, none of them twice, and every other request sends nothing. Whoever asks for something that
does not exist is told so without a statement being sent.
-/

namespace TableApi

open Work

namespace Command

variable {c : Config} {r : Request}

/-- Statements that do not wait for each other find nothing missing. -/
theorem missesEarly_all {α : Type} {f : Statement → Work α} {event : Bool → Statement → Event}
    {value : List Reply → α} (h : TakesOne f event value) (qs : List Statement) :
    MissesEarly (Work.all (qs.map f)) := by
  refine .of_ne fun s what hmissing => ?_
  obtain ⟨sent, hgathered, -⟩ := on_all h qs s
  obtain ⟨k, -, why, -, hwhy⟩ := hgathered.error _ hmissing
  simp at hwhy

/-- **A read is its selects**, which do not wait for each other, and then the rows nested. -/
theorem get_eq (hkeyed : ∀ v ∈ r.views, v.Keyed c.dialect) :
    get c r = (fun results => .object (Relation.merge r.views r.relations results)) <$>
      Work.all ((r.views.map (r.selectOf c.dialect)).map Work.fetch) := by
  rw [get, mapM_eq_ok_map fun v hv => scopedSelect_eq hkeyed hv, map_eq_pure_bind]
  rfl

theorem sendsApart_get (hkeyed : ∀ v ∈ r.views, v.Keyed c.dialect) :
    SendsApart (get c r) (r.views.map fun v => .fetch false (r.selectOf c.dialect v)) := by
  have hselects : (r.views.map (r.selectOf c.dialect)).map (Event.fetch false) =
      r.views.map fun v => Event.fetch false (r.selectOf c.dialect v) :=
    List.map_map
  rw [get_eq hkeyed, ← hselects]
  exact (sendsApart_all takesOne_fetch _).map _

theorem missesEarly_get (hkeyed : ∀ v ∈ r.views, v.Keyed c.dialect) : MissesEarly (get c r) := by
  rw [get_eq hkeyed]
  exact (missesEarly_all takesOne_fetch _).map _

/-! ## Updating -/

end Command

namespace Engine

variable {e : Engine} {method path query : String} {body : Option Json} {turns : List Turn}

/-- The views of every request have well-formed conditions. -/
theorem keyed_of_parse {write : Bool} {r : Request}
    (h : Request.parse e.context method path query write = .ok (.views r)) :
    ∀ v ∈ r.views, v.Keyed e.settings.dialect :=
  (Request.kept_keyed _).ofParts (Request.ofParts_of_parse h)

/-- A request for a model sends nothing. -/
@[simp] theorem on_serve_model (v : Verb) (call : ModelCall) (s : Session) :
    ((e.serve v body (.model call)).on s).2 = s := by
  rw [serve, on_ofExcept]

/-- A request that sends anything has a method that the settings allow. -/
theorem allows_of_log {script : List Reply}
    (hlog : ((e.handle method path query body).on ⟨script, [], false, turns⟩).2.log ≠ []) :
    e.settings.allows (Text.uppered method) = true := by
  by_contra hallows
  rw [handle_of_not_allowed (by simpa using hallows)] at hlog
  exact hlog rfl

theorem exists_parse_of_log {v : Verb} (hverb : e.verb? (Text.uppered method) = some v)
    (hoptions : v ≠ .options) {script : List Reply}
    (hlog : ((e.handle method path query body).on ⟨script, [], false, turns⟩).2.log ≠ []) :
    ∃ r, Request.parse e.context (Text.uppered method) path query v.isWrite =
      .ok (.views r) := by
  rw [handle_of_some hverb hoptions, on_bind, on_ofExcept] at hlog
  cases hparse : Request.parse e.context (Text.uppered method) path query v.isWrite with
  | error why => simp [hparse] at hlog
  | ok target =>
    cases target with
    | model call =>
      rw [hparse] at hlog
      dsimp only at hlog
      rw [on_serve_model] at hlog
      simp at hlog
    | views r => exact ⟨r, rfl⟩

/-- What is sent for a read, and what is answered when nothing was. -/
theorem reads_of_parse (body : Option Json) {r : Request}
    (hparse : Request.parse e.context method path query false = .ok (.views r)) :
    SendsApart (e.serve .get body (.views r))
        (r.views.map fun v => .fetch false (r.selectOf e.settings.dialect v)) ∧
      MissesEarly (e.serve .get body (.views r)) := by
  have hserve : e.serve .get body (.views r) =
      .json <$> Command.get (.ofSettings e.settings) r := by
    cases body <;> rfl
  have hkeyed := keyed_of_parse hparse
  rw [hserve]
  exact ⟨(Command.sendsApart_get hkeyed).map _, (Command.missesEarly_get hkeyed).map _⟩

/-! ## Every request -/

/-- **What a request may send**, by its method, in a run on a fresh session with these turns. -/
structure Accesses (e : Engine) (method path query : String) (turns : List Turn)
    (run : Except ApiError Output × Session) : Prop where
  /-- Whatever is no plain fetch is sent for a write that the settings allow. -/
  writes : ∀ event ∈ run.2.log, (∀ q, event ≠ .fetch false q) →
    Text.uppered method ∈ ["POST", "PUT", "PATCH", "DELETE"] ∧
      e.settings.allows (Text.uppered method) = true
  /-- A read of tables sends the select of each view. -/
  reads : Text.uppered method = "GET" →
    ∀ r, Request.parse e.context (Text.uppered method) path query false = .ok (.views r) →
      SentApart turns (∃ out, run.1 = .ok out)
        (r.views.map fun v => .fetch false (r.selectOf e.settings.dialect v)) run.2.log
  /-- Any other GET sends nothing. -/
  unread : Text.uppered method = "GET" →
    (∀ r, Request.parse e.context (Text.uppered method) path query false ≠ .ok (.views r)) →
      run.2.log = []
  /-- Nor does a request about the service itself. -/
  silent : Text.uppered method ∈ ["HEAD", "OPTIONS"] → run.2.log = []
  /-- Nor does one for what does not exist. -/
  missing : ∀ what, run.1 = .error (.notFound what) → run.2.log = []

namespace Accesses

variable {run : Except ApiError Output × Session}

/-- A request that sends nothing, and is no read. -/
theorem of_silent (hlog : run.2.log = [])
    (hread : Text.uppered method = "GET" →
      ∀ r, Request.parse e.context (Text.uppered method) path query false ≠ .ok (.views r)) :
    e.Accesses method path query turns run where
  writes := by simp [hlog]
  reads := fun hget r hr => absurd hr (hread hget r)
  unread := fun _ _ => hlog
  silent := fun _ => hlog
  missing := fun _ _ => hlog

end Accesses

end Engine

end TableApi
