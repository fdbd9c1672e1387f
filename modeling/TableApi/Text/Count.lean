/-!
# Numbers in texts

Counts and integers written with ASCII digits. A count is at most `maxCount`, the greatest number of
a word; digits that write more write no count.
-/

namespace TableApi.Text

/-- The greatest number that an offset, a limit or a size can be. -/
def maxCount : Nat := 18446744073709551615

/-- The number that decimal digits write. -/
def digitsValue (s : List Char) : Nat :=
  s.foldl (fun n c => n * 10 + (c.toNat - 48)) 0

/-- One or more ASCII digits. -/
def isDigits (s : List Char) : Bool :=
  !s.isEmpty && s.all Char.isDigit

/-- **The count that ASCII digits write**, if there are any and it is at most `maxCount`. -/
def count? (s : List Char) : Option Nat :=
  if isDigits s ∧ digitsValue s ≤ maxCount then some (digitsValue s) else none

/-- The count written by the ASCII digits of a text, whatever stands between them. -/
def looseCount? (s : String) : Option Nat :=
  count? (s.toList.filter Char.isDigit)

/-- The sign that a number's text starts with, and the rest. -/
def cutSign : List Char → Bool × List Char
  | '-' :: rest => (true, rest)
  | '+' :: rest => (false, rest)
  | rest => (false, rest)

/-- The integer that an optional sign and ASCII digits write. -/
def integer? (s : List Char) : Option Int :=
  let (negative, digits) := cutSign s
  if isDigits digits then
    some (if negative then -(digitsValue digits : Int) else digitsValue digits)
  else none

example : looseCount? "1a0" = some 10 := by decide
example : integer? "-7".toList = some (-7) := by decide

end TableApi.Text
