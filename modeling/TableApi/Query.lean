import TableApi.Text.Cut
import TableApi.Text.Percent
import TableApi.Text.Sanitize

/-!
# Query strings

A query string is a form of `key=value` pairs, except that `+` stands for itself. A key may name the
table that it is meant for, `children.filter`, and may end in `[]`; keys are compared in lower case.
-/

namespace TableApi

/-- **One parameter of a request.** -/
structure Param where
  /-- The table it is meant for, if it names one. -/
  target : Option String
  /-- The key in lower case, without table and `[]`. -/
  key : String
  value : String
  /-- The key as it was sent. -/
  rawKey : String
deriving DecidableEq, Repr, Inhabited

namespace Query

/-- The keys that a reading request knows. -/
def readKeys : List String :=
  ["distinct", "filter", "where", "columns", "exclude", "include", "order", "page", "start",
    "length", "join", "group", "having", "relation"]

/-- The keys that a writing request knows. -/
def writeKeys : List String :=
  ["filter", "where", "relation"]

/-- The text without the pairs of brackets at its end. -/
def stripBrackets (s : List Char) : List Char :=
  let rec strip : List Char → List Char
    | ']' :: '[' :: rest => strip rest
    | rest => rest
  (strip s.reverse).reverse

/-- A key in the form in which keys are compared. -/
def normalKey (s : List Char) : String :=
  let key := String.ofList (Text.lower (stripBrackets (Text.trim s)))
  if key = "w" then "where" else key

/-- **A parameter of a decoded pair.** What stands before the last point of the key is the target,
if what stands after it is a key that requests know. -/
def paramOf (rawKey value : List Char) : Param :=
  let stripped := stripBrackets (Text.trim rawKey)
  let plain : Param :=
    ⟨none, normalKey stripped, String.ofList value, String.ofList rawKey⟩
  match Text.cutLast '.' stripped with
  | some (table, key) =>
    if readKeys.contains (normalKey key) then
      { plain with target := some (String.ofList table), key := normalKey key }
    else plain
  | none => plain

/-- The pieces of a text between the occurrences of a character. -/
def piecesBetween (mark : Char) : List Char → List (List Char)
  | [] => [[]]
  | c :: rest =>
    let pieces := piecesBetween mark rest
    if c = mark then [] :: pieces
    else
      match pieces with
      | first :: more => (c :: first) :: more
      | [] => [[c]]

/-- The key and the value of one pair, decoded. Without an equals sign the value is empty. -/
def decodePair (s : List Char) : List Char × List Char :=
  let (key, value) := (Text.cutAt '=' s).getD (s, [])
  (Text.Percent.decode key, Text.Percent.decode value)

/-- **The parameters of a query string**, with or without question marks before it. -/
def parse (text : String) : List Param :=
  let form := text.toList.dropWhile (· == '?')
  ((piecesBetween '&' form).filter (!·.isEmpty)).map fun pair =>
    let (key, value) := decodePair pair
    paramOf key value

example : parse "?children.W[]=a%2Cb+c&x" =
    [⟨some "children", "where", "a,b+c", "children.W[]"⟩, ⟨none, "x", "", "x"⟩] := by
  decide +kernel

end Query

end TableApi
