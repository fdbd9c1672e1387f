import TableApi.Json.Token

/-!
# The grammar of JSON

A machine over tokens with a stack of the arrays and objects that are still open. Each token moves
it one step, so it needs no measure and no bound on depth.
-/

namespace TableApi.Json

/-- An open array or object: what it holds so far, last first. An object waits for the value of its
latest key. -/
inductive Frame
  | array (items : List Written)
  | object (fields : List (List Piece × Written)) (key : List Piece)
deriving Repr, Inhabited

/-- What the machine takes next. -/
inductive Expecting
  /-- A value. -/
  | value
  /-- The first element of a new array, or its end. -/
  | firstItem
  /-- The first key of a new object, or its end. -/
  | firstKey
  /-- A key of the object with these fields. -/
  | key (fields : List (List Piece × Written))
  /-- The colon after this key of the object with these fields. -/
  | colon (fields : List (List Piece × Written)) (key : List Piece)
  /-- A comma or an end, the value just read being this one. -/
  | next (value : Written)
deriving Repr, Inhabited

/-- **The machine**: what it expects, and what is open around that, innermost first. -/
structure ParseState where
  expecting : Expecting
  stack : List Frame
deriving Repr, Inhabited

/-- A token where a value is due. -/
def beginValue (stack : List Frame) : Token → Option ParseState
  | .null => some ⟨.next .null, stack⟩
  | .bool b => some ⟨.next (.bool b), stack⟩
  | .number n => some ⟨.next (.number n), stack⟩
  | .string pieces => some ⟨.next (.string pieces), stack⟩
  | .openArray => some ⟨.firstItem, stack⟩
  | .openObject => some ⟨.firstKey, stack⟩
  | _ => none

/-- A token after a value, which belongs to the innermost open frame. -/
def afterValue (value : Written) (stack : List Frame) (t : Token) : Option ParseState :=
  match stack, t with
  | .array items :: stack, .comma => some ⟨.value, .array (value :: items) :: stack⟩
  | .array items :: stack, .closeArray => some ⟨.next (.array (value :: items).reverse), stack⟩
  | .object fields key :: stack, .comma => some ⟨.key ((key, value) :: fields), stack⟩
  | .object fields key :: stack, .closeObject =>
    some ⟨.next (.object ((key, value) :: fields).reverse), stack⟩
  | _, _ => none

/-- **One step of the grammar.** -/
def ParseState.step (s : ParseState) (t : Token) : Option ParseState :=
  match s.expecting, t with
  | .value, t => beginValue s.stack t
  | .firstItem, .closeArray => some ⟨.next (.array []), s.stack⟩
  | .firstItem, t => beginValue (.array [] :: s.stack) t
  | .firstKey, .closeObject => some ⟨.next (.object []), s.stack⟩
  | .firstKey, .string key => some ⟨.colon [] key, s.stack⟩
  | .key fields, .string key => some ⟨.colon fields key, s.stack⟩
  | .colon fields key, .colon => some ⟨.value, .object fields key :: s.stack⟩
  | .next value, t => afterValue value s.stack t
  | _, _ => none

/-- The value of a machine that has read a whole text. -/
def ParseState.result? : ParseState → Option Written
  | ⟨.next value, []⟩ => some value
  | _ => none

/-- **A JSON text as written**: one value with nothing but blanks around it. -/
def parseWritten? (s : List Char) : Option Written := do
  let tokens ← lex? s
  let state ← tokens.foldlM ParseState.step ⟨.value, []⟩
  state.result?

/-- The value of a JSON text, within the limits on depth, numbers and surrogates. -/
def parse? (s : List Char) : Option Json :=
  ofText? (parseWritten? s)

end TableApi.Json
