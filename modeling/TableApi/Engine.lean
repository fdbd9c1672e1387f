import TableApi.Command.Basic
import TableApi.Describe
import TableApi.Introspect.Basic
import TableApi.Verb

/-!
# The engine

One entry point for every request: the method picks a verb, the path and the query string pick the
views, and the verb's command does the work. A request works on the catalog that the engine has when
it starts.
-/

namespace TableApi

/-- **The engine.** -/
structure Engine where
  settings : Settings
  models : Models
  catalog : Catalog

/-- **The answer to a request.** -/
inductive Output
  | json (v : Json)
  /-- Success without a body. -/
  | empty
deriving BEq, Repr, Inhabited

namespace Engine

/-- What requests are read with. -/
def context (e : Engine) : Context :=
  ⟨e.catalog, e.settings, e.models⟩

/-- The verb of a method, given in upper case, if it is allowed. -/
def verb? (e : Engine) (method : String) : Option Verb :=
  (Verb.ofMethod? method).filter fun _ => e.settings.allows method

/-- The body of a request. A verb that needs one takes neither none nor null. -/
def bodyFor (v : Verb) (body : Option Json) : Except ApiError Json :=
  match v.needsBody, body with
  | true, none | true, some .null => .error (.badRequest .bodyRequired)
  | _, body => .ok (body.getD .null)

/-- What a verb does with the views of a request. -/
def runVerb (c : Command.Config) (v : Verb) (r : Request) (body : Json) : Work Output :=
  match v with
  | .get => .json <$> Command.get c r
  | .post => do
    let payloads ← Work.ofExcept (Payload.assign r body)
    .json <$> Command.post c r payloads
  | .patch => .json <$> Command.patch c r body
  | .put => .json <$> Command.put c r body
  | .delete => .json <$> Command.delete c r
  | .head | .options => pure .empty

/-- The answer of a model. -/
def callModel (e : Engine) (call : ModelCall) : Except ApiError Output :=
  match e.models.get? call.model with
  | some m => (m.call call).map .json
  | none => .error (.notFound ("model '" ++ call.model ++ "'"))

/-- **The answer to a request.** -/
def handle (e : Engine) (method path query : String) (body : Option Json) : Work Output := do
  let method := Text.uppered method
  match e.verb? method with
  | none => Work.fail (.notFound ("method '" ++ method ++ "'"))
  | some .options => pure (.json (Describe.document e.settings e.catalog))
  | some v =>
    match ← Work.ofExcept (Request.parse e.context method path query v.isWrite) with
    | .model call => Work.ofExcept (e.callModel { call with body })
    | .views r => do
      let body ← Work.ofExcept (bodyFor v body)
      runVerb (Command.Config.ofSettings e.settings) v r body

/-- The engine with its catalog read anew. -/
def refresh (e : Engine) : Work Engine := do
  let catalog ← Introspect.readCatalog e.settings.dialect e.settings.databases
  pure { e with catalog }

/-- **A first engine**, its catalog read from a database that must speak the settings' dialect. -/
def bootstrap (dialect : Dialect) (settings : Settings) : Work Engine := do
  if dialect ≠ settings.dialect then
    Work.fail (.config (.validation (.dialectMismatch dialect settings.dialect)))
  else
    let catalog ← Introspect.readCatalog dialect settings.databases
    pure ⟨settings, .empty, catalog⟩

end Engine

end TableApi
