import TableApi.Error
import TableApi.Json.Basic
import TableApi.Query

/-!
# Models

A model answers requests itself instead of a table. It is addressed by the first segment of a path;
the second one may name one of its functions.
-/

namespace TableApi

/-- **A call of a model.** -/
structure ModelCall where
  model : String
  function : String
  method : String
  /-- The segments of the path after the function. -/
  args : List String
  query : List Param
  body : Option Json
deriving Repr, Inhabited

/-- **A model**: the functions it has, and its answer to a call. -/
structure Model where
  functions : List String
  call : ModelCall → Except ApiError Json

/-- The models that are served, by name. A later one replaces an earlier one of its name. -/
structure Models where
  entries : List (String × Model)

namespace Model

/-- The function that is called when a path names none. -/
def defaultFunction : String := "index"

/-- The model has a function of this name, in any case of its ASCII letters. -/
def hasFunction (m : Model) (name : String) : Bool :=
  m.functions.any (Text.sameLetters · name)

/-- The function and the arguments that the rest of a path names. -/
def resolve (m : Model) (rest : List String) : String × List String :=
  match rest with
  | first :: args =>
    if m.hasFunction first then (Text.lowered first, args) else (defaultFunction, rest)
  | [] => (defaultFunction, [])

end Model

namespace Models

/-- No models. -/
def empty : Models := ⟨[]⟩

/-- The models with one more. -/
def register (ms : Models) (name : String) (m : Model) : Models :=
  ⟨(name, m) :: ms.entries⟩

/-- The model of a name. -/
def get? (ms : Models) (name : String) : Option Model :=
  ms.entries.lookup name

end Models

/-- A parameter as JSON: target, key, value, and the key as it was sent. -/
def Param.toJson (p : Param) : Json :=
  .array [Json.ofOption p.target, .string p.key, .string p.value, .string p.rawKey]

/-- A call as JSON. -/
def ModelCall.toJson (c : ModelCall) : Json :=
  .object [("model", .string c.model), ("function", .string c.function),
    ("method", .string c.method), ("args", .array (c.args.map .string)),
    ("query", .array (c.query.map Param.toJson)), ("body", c.body.getD .null)]

/-- **A model that answers with the call itself**, for trying out paths. A first argument `deny` or
`unsupported` makes it refuse the call that way. -/
def Model.echo (functions : List String) : Model where
  functions := functions
  call c :=
    match c.args.head? with
    | some "deny" => .error (.accessDenied c.model)
    | some "unsupported" => .error (.unsupported c.function)
    | _ => .ok c.toJson

end TableApi
