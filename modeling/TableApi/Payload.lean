import TableApi.Request
import TableApi.Statement

/-!
# Payloads

The rows that the body of a request brings, and how a body with entries for several tables is
shared out among the views.
-/

namespace TableApi

/-- **The rows for one view**: an object, or a list of objects. -/
inductive Payload
  | one (row : Row)
  | many (rows : List Row)
deriving BEq, Repr, Inhabited

namespace Payload

/-- The rows in order. -/
def rows : Payload → List Row
  | .one row => [row]
  | .many rows => rows

/-- The rows of a list of values, which must all be objects. -/
def rowsOf : List Json → Except ApiError (List Row)
  | [] => .ok []
  | .object row :: rest => (rowsOf rest).map (row :: ·)
  | _ :: _ => .error (.badRequest .nonObjectItem)

/-- **The payload of a body.** -/
def ofBody : Json → Except ApiError Payload
  | .object row => .ok (.one row)
  | .array [] => .error (.badRequest .emptyPayload)
  | .array items => (rowsOf items).map .many
  | _ => .error (.badRequest .notObjectOrArray)

/-- The value could be a payload. -/
def isContainer : Json → Bool
  | .object _ | .array _ => true
  | _ => false

/-- The fields of a body that has entries for tables: with links in the request, an object with an
object or an array under the name of some table. -/
def tableFields? (r : Request) (body : Json) : Option Fields :=
  match body with
  | .object fields =>
    if !r.relations.isEmpty
        && r.views.any (fun v => (Fields.get? fields v.table).any isContainer) then
      some fields
    else none
  | _ => none

/-- The payload of each view, taken from the fields one after the other. -/
def share (fields : Fields) : List View → Except ApiError (List (Option Payload))
  | [] => .ok []
  | v :: views =>
    match fields.get? v.table with
    | none => (share fields views).map (none :: ·)
    | some value => do
      let payload ← ofBody value
      let rest ← share (fields.erase v.table) views
      pure (some payload :: rest)

/-- **The payload of each view.** A body without entries for tables is the primary view's alone; one
with entries must have one for the primary view. -/
def assign (r : Request) (body : Json) : Except ApiError (List (Option Payload)) :=
  match tableFields? r body with
  | none => do
    let payload ← ofBody body
    pure (some payload :: r.views.tail.map fun _ => none)
  | some fields => do
    let payloads ← share fields r.views
    if (payloads.head?.bind id).isSome then pure payloads
    else .error (.badRequest (.noEntry r.primary.table))

end Payload

end TableApi
