import TableApi.Store.Cell
import TableApi.Store.Decimal

/-!
# Keys

A key is a signed word. A bound value names one if it is an integer, a binary64 number that is
whole, or a text that writes such a number. Numbers at the two ends of the word's range come only
as integers: a binary64 number there stands for a whole interval.
-/

namespace TableApi.Store

/-- The whole number that a binary64 number is. -/
def wholeOf? (x : Binary64) : Option Int :=
  let (n, d) := x.ratio
  if n % d = 0 then some (if x.negative then -(n / d : Nat) else (n / d : Nat)) else none

/-- The key that a binary64 number is: whole, and strictly inside the range of a word. -/
def keyOfReal? (x : Binary64) : Option Int :=
  (wholeOf? x).filter fun n => Number.isSigned (n - 1) && Number.isSigned (n + 1)

/-- White space around a number: the space and the ASCII controls from tab to carriage return. -/
def isMargin (c : Char) : Bool :=
  c == ' ' || (9 ≤ c.toNat && c.toNat ≤ 13)

/-- A text without the white space at its two ends. -/
def withoutMargins (s : List Char) : List Char :=
  ((s.dropWhile isMargin).reverse.dropWhile isMargin).reverse

/-- The binary64 number that a text is read as. -/
def realOfText? (s : List Char) : Option Binary64 :=
  (Decimal.ofChars? s).bind Decimal.toBinary64?

/-- The key that a text writes. -/
def keyOfText? (s : List Char) : Option Int :=
  let s := withoutMargins s
  ((Text.integer? s).filter Number.isSigned).or ((realOfText? s).bind keyOfReal?)

/-- **The key that a bound value names.** -/
def keyOf? : Cell → Option Int
  | .null => none
  | .bool b => some (if b then 1 else 0)
  | .int n => some n
  | .real x => keyOfReal? x
  | .text s => keyOfText? s.toList

example : keyOfText? "-7".toList = some (-7) := by decide +kernel
example : keyOfText? " 10.0 ".toList = some 10 := by decide +kernel
example : keyOfText? "12e-1".toList = none := by decide +kernel
example : keyOfText? ".5e1".toList = some 5 := by decide +kernel
example : keyOfText? "9223372036854775808".toList = none := by decide +kernel
example : keyOfText? "e1".toList = none := by decide +kernel

end TableApi.Store
