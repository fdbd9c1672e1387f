import TableApi.Address
import TableApi.Engine
import TableApi.Json.Parser
import TableApi.Text.Utf8

/-!
# The server

Requests of HTTP and their responses. A few fixed paths tell how the server is; every other path
goes to the engine. A body beyond the limit of the settings is refused before anything is read.
-/

namespace TableApi

/-- **A request of HTTP.** -/
structure HttpRequest where
  method : String
  address : Address
  body : List UInt8 := []
  /-- The length of the body is announced in a header. -/
  announced : Bool := false
deriving DecidableEq, Repr, Inhabited

/-- **A response of HTTP.** -/
structure HttpResponse where
  status : Nat
  /-- The type of the body, if there is one. -/
  contentType : Option String := none
  /-- The methods that the path takes, where another one was used. -/
  allow : Option String := none
  body : String := ""
deriving DecidableEq, Repr, Inhabited

namespace Server

/-- A response without a body. -/
def bare (status : Nat) : HttpResponse :=
  { status }

/-- A response with a JSON body. -/
def json (status : Nat) (v : Json) : HttpResponse :=
  { status, contentType := some "application/json", body := v.compact }

/-- The response to a body beyond the limit. -/
def tooLarge (text : String) : HttpResponse :=
  { status := 413, contentType := some "text/plain; charset=utf-8", body := text }

/-- The response to a failure. -/
def failure (e : ApiError) : HttpResponse :=
  json e.status
    (.object [("error", .object [("code", .string e.code), ("message", .string e.message)])])

/-- The methods that a fixed path takes. -/
def fixedMethods : String := "GET,HEAD"

/-- The response to a method that a path does not take. -/
def notAllowed : HttpResponse :=
  bare 405

/-- A byte of white space in ASCII. -/
def isBlankByte (b : UInt8) : Bool :=
  b == 32 || b == 9 || b == 10 || b == 12 || b == 13

/-- **The value of a body**; one of blanks only is absent. -/
def parseBody (bytes : List UInt8) : Except ApiError (Option Json) :=
  if bytes.all isBlankByte then .ok none
  else
    match (Text.Utf8.decode? bytes).bind Json.parse? with
    | some v => .ok (some v)
    | none => .error (.badRequest .invalidJson)

/-- The name and the version of the server. -/
def version : Json :=
  .object [("name", .string "schema-rest"), ("version", .string "0.1.0")]

/-- The server is alive. -/
def health : Json :=
  .object [("status", .string "ok")]

/-- The statement by which a database shows that it answers. -/
def ping : Work Unit := do
  let _ ← Work.fetch { sql := "SELECT 1" }

/-- The server is ready if its database answers. -/
def ready (e : Engine) : StateM Session HttpResponse := do
  match ← ping.run with
  | .ok () =>
    pure (json 200 (.object [("status", .string "ok"), ("database", .string "ok"),
      ("tables", .ofNat e.catalog.tableCount)]))
  | .error _ =>
    pure (json 503 (.object [("status", .string "degraded"), ("database", .string "unavailable")]))

/-- A fixed path: `GET` answers and `HEAD` answers without the body. For another method the response
is `other`, and names the methods that the path takes. -/
def fixedPath (method : String) (answer : StateM Session HttpResponse) (other : HttpResponse) :
    StateM Session HttpResponse :=
  if method = "GET" then answer
  else if method = "HEAD" then (fun r => { r with body := "" }) <$> answer
  else pure { other with allow := some fixedMethods }

/-- The answers of the fixed paths that need no engine. -/
def commonPath? (path : String) : Option HttpResponse :=
  if path = "/health" then some (json 200 health)
  else if path = "/version" ∨ path = "/info" then some (json 200 version)
  else none

/-- **The response of a server without an engine.** -/
def respondCommon (r : HttpRequest) : StateM Session HttpResponse :=
  match commonPath? r.address.path with
  | some answer => fixedPath r.method (pure answer) notAllowed
  | none => pure (bare 404)

/-- The status of an output: what is posted is created. -/
def render (method : String) : Output → HttpResponse
  | .empty => bare 200
  | .json v => json (if Verb.ofMethod? method = some .post then 201 else 200) v

/-- The response of the engine to a request within the limit. -/
def dispatch (e : Engine) (r : HttpRequest) : StateM Session HttpResponse := do
  let work : Work Output := do
    let body ← Work.ofExcept (parseBody r.body)
    e.handle r.method r.address.path r.address.query body
  match ← work.run with
  | .ok output => pure (render r.method output)
  | .error err => pure (failure err)

/-- The body is longer than the settings allow. -/
def exceeds (e : Engine) (r : HttpRequest) : Bool :=
  r.body.length > e.settings.bodyLimit

/-- **The response of a server.** -/
def respond (e : Engine) (r : HttpRequest) : StateM Session HttpResponse :=
  let path := r.address.path
  match commonPath? path with
  | some answer => fixedPath r.method (pure answer) notAllowed
  | none =>
    if path = "/ready" then fixedPath r.method (ready e) notAllowed
    else
      let refused := r.announced && exceeds e r
      if path = "/--schema" then
        if refused then
          let answer := tooLarge "length limit exceeded"
          fixedPath r.method (pure answer) answer
        else fixedPath r.method (pure (json 200 e.catalog.toJson)) notAllowed
      else if refused then pure (tooLarge "length limit exceeded")
      else if exceeds e r then
        pure (tooLarge "Failed to buffer the request body: length limit exceeded")
      else dispatch e r

end Server

end TableApi
