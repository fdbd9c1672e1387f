import TableApi.Engine
import TableApi.Proofs.Request.Views
import TableApi.Proofs.Session.Run

/-!
# How requests are dispatched

`Engine.handle` in the three cases that it has: no verb, the verb that asks for the description of
the service, and any other verb with what the request addresses.
-/

namespace TableApi

@[simp] theorem Verb.ofMethod?_name (v : Verb) : Verb.ofMethod? v.name = some v := by
  cases v <;> decide +kernel

namespace Engine

variable {e : Engine} {method : String}

/-- A method of an allowed verb is that verb's, and the settings allow it. -/
theorem verb?_eq_some {v : Verb} :
    e.verb? method = some v ↔ Verb.ofMethod? method = some v ∧ e.settings.allows method = true :=
  Option.filter_eq_some_iff

/-- The method that a verb is named by is that verb's, if the settings allow it. -/
theorem verb?_of_name {v : Verb} (hmethod : method = v.name)
    (hallows : e.settings.allows method = true) : e.verb? method = some v := by
  refine verb?_eq_some.2 ⟨?_, hallows⟩
  rw [hmethod, Verb.ofMethod?_name]

@[simp] theorem verb?_get (e : Engine) : e.verb? "GET" = some .get :=
  verb?_eq_some.2 ⟨Verb.ofMethod?_name .get, by simp [Settings.allows]⟩

/-- What is done for a verb with what the request addresses. -/
def serve (e : Engine) (v : Verb) (body : Option Json) : Target → Work Output
  | .model call => Work.ofExcept (e.callModel { call with body })
  | .views r => do
    let body ← Work.ofExcept (bodyFor v body)
    runVerb (.ofSettings e.settings) v r body

theorem handle_of_none (h : e.verb? (Text.uppered method) = none) (path query : String)
    (body : Option Json) :
    e.handle method path query body =
      Work.fail (.notFound ("method '" ++ Text.uppered method ++ "'")) := by
  rw [handle, h]

/-- A method that the settings do not allow is not served. -/
theorem handle_of_not_allowed (h : e.settings.allows (Text.uppered method) = false)
    (path query : String) (body : Option Json) :
    e.handle method path query body =
      Work.fail (.notFound ("method '" ++ Text.uppered method ++ "'")) := by
  refine handle_of_none ?_ path query body
  exact Option.eq_none_iff_forall_ne_some.2 fun v hv => by simp [(verb?_eq_some.1 hv).2] at h

/-- **Any other verb**: the request is read, and served. -/
theorem handle_of_some {v : Verb} (h : e.verb? (Text.uppered method) = some v)
    (hv : v ≠ .options) (path query : String) (body : Option Json) :
    e.handle method path query body =
      Work.ofExcept (Request.parse e.context (Text.uppered method) path query v.isWrite) >>=
        e.serve v body := by
  rw [handle, h]
  cases v with
  | options => exact absurd rfl hv
  | _ =>
    refine bind_congr fun target => ?_
    cases target <;> rfl

end Engine

end TableApi
