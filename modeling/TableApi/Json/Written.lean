import TableApi.Json.Basic
import TableApi.Text.Count

/-!
# JSON as written

A well-formed JSON text before its literals are valued: numbers keep their digits and strings their
escapes. Reading values from it adds the limits that grammar alone does not have: how deep values
nest, how large a number is, and that surrogate escapes come in pairs. A reader that skips a part
of the text skips these limits too.
-/

namespace TableApi.Json

/-- **A written number.** A missing fraction is empty; the exponent is the number after the mark. -/
structure Numeral where
  negative : Bool
  whole : List Char
  fraction : List Char
  exponent : Option Int
deriving DecidableEq, Repr, Inhabited

/-- A piece of a written string: a character, or a code unit of UTF-16 written as an escape. -/
inductive Piece
  | char (c : Char)
  | unit (n : Nat)
deriving DecidableEq, Repr, Inhabited

/-- **A written value.** -/
inductive Written
  | null
  | bool (b : Bool)
  | number (n : Numeral)
  | string (pieces : List Piece)
  | array (items : List Written)
  | object (fields : List (List Piece × Written))
deriving Repr, Inhabited

/-- The text of a written string. A high surrogate must be followed by a low one. -/
def decodePieces? : List Piece → Option (List Char)
  | [] => some []
  | .char c :: rest => (decodePieces? rest).map (c :: ·)
  | .unit n :: rest =>
    if n < 0xD800 ∨ 0xE000 ≤ n then (decodePieces? rest).map (Char.ofNat n :: ·)
    else
      match rest with
      | .unit m :: rest =>
        if n < 0xDC00 ∧ 0xDC00 ≤ m ∧ m < 0xE000 then
          (decodePieces? rest).map (Char.ofNat (0x10000 + (n - 0xD800) * 0x400 + (m - 0xDC00)) :: ·)
        else none
      | _ => none

/-- A written string as a string. -/
def stringOf? (pieces : List Piece) : Option String :=
  (decodePieces? pieces).map String.ofList

/-- Digits are taken into a significand as long as it fits an unsigned word: the significand, and
how many digits were taken. -/
def takeDigits (significand : Nat) : List Char → Nat × Nat
  | [] => (significand, 0)
  | c :: rest =>
    let next := significand * 10 + (c.toNat - 48)
    if next ≤ Number.maxInt.toNat then
      let (n, taken) := takeDigits next rest
      (n, taken + 1)
    else (significand, 0)

/-- Greatest exponent that is counted out; beyond it only zero and underflow are left. -/
def maxExponent : Int := 2147483647

/-- **The value of a written number.** An integer that fits a word of its sign stays one. All else
is a binary64 number: the leading digits that fit a word, converted and scaled by ten to the power
that the other digits and the exponent leave. Integer digits that do not fit count as zeros and
fraction digits after the first that does not fit are dropped. `none` when the result is too
large. -/
def Numeral.value? (n : Numeral) : Option Number :=
  let (whole, taken) := takeDigits 0 n.whole
  if n.fraction.isEmpty ∧ n.exponent.isNone ∧ taken = n.whole.length ∧
      (!n.negative ∨ (0 < whole ∧ (whole : Int) ≤ -Number.minInt)) then
    some (.int (if n.negative then -whole else whole))
  else
    let (significand, places) := takeDigits whole n.fraction
    let point : Int := (n.whole.length - taken : Nat) - places
    let scaled :=
      match n.exponent with
      | none => (Binary64.ofRatio? false significand 1).bind (·.scaleTen? point)
      | some e =>
        if maxExponent < e.natAbs then
          if significand ≠ 0 ∧ 0 < e then none else some ⟨0⟩
        else (Binary64.ofRatio? false significand 1).bind (·.scaleTen? (point + e))
    scaled.map fun x => .real (x.withSign n.negative)

mutual

/-- The value of a written value that nests at most `depth` arrays and objects. -/
def ofWritten? (depth : Nat) : Written → Option Json
  | .null => some .null
  | .bool b => some (.bool b)
  | .number n => n.value?.map .number
  | .string pieces => (stringOf? pieces).map .string
  | .array items =>
    match depth with
    | 0 => none
    | depth + 1 => (itemsOf? depth items).map .array
  | .object fields =>
    match depth with
    | 0 => none
    | depth + 1 => (fieldsOf? depth fields).map fun fs => .object (Fields.ofList fs)

/-- The values of written elements. -/
def itemsOf? (depth : Nat) : List Written → Option (List Json)
  | [] => some []
  | item :: items => do
    let v ← ofWritten? depth item
    let vs ← itemsOf? depth items
    pure (v :: vs)

/-- The fields of written fields, repeated keys included. -/
def fieldsOf? (depth : Nat) : List (List Piece × Written) → Option (List (String × Json))
  | [] => some []
  | (key, value) :: fields => do
    let k ← stringOf? key
    let v ← ofWritten? depth value
    let fs ← fieldsOf? depth fields
    pure ((k, v) :: fs)

end

/-- How many arrays and objects may be nested. -/
def maxDepth : Nat := 127

/-- **The value of a JSON text**, within the limits on depth, numbers and surrogates. -/
def ofText? (text : Option Written) : Option Json :=
  text.bind (ofWritten? maxDepth)

end TableApi.Json
