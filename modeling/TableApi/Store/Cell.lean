import TableApi.Json.Printer

/-!
# Values that a database holds

A parameter is bound as null, a truth value, a signed integer, a binary64 number or text. Arrays and
objects travel as their JSON text, and integers beyond a signed word as binary64 numbers.
-/

namespace TableApi

/-- **A bound value.** -/
inductive Cell
  | null
  | bool (b : Bool)
  | int (n : Int)
  | real (x : Binary64)
  | text (s : String)
deriving DecidableEq, Repr, Inhabited

namespace Cell

/-- The binary64 number nearest to an integer. -/
def realOf (n : Int) : Binary64 :=
  (Binary64.ofRatio? (n < 0) n.natAbs 1).getD default

/-- **A JSON value as it is bound.** -/
def ofJson : Json → Cell
  | .null => .null
  | .bool b => .bool b
  | .number (.int n) => if Number.isSigned n then .int n else .real (realOf n)
  | .number (.real x) => .real x
  | .string s => .text s
  | v => .text v.compact

/-- A value as it comes back: truth values are integers to a table. -/
def toJson : Cell → Json
  | .null => .null
  | .bool b => .number (.int (if b then 1 else 0))
  | .int n => .number (.int n)
  | .real x => .number (.real x)
  | .text s => .string s

end Cell

end TableApi
