import TableApi.Binary64.Extended
import TableApi.Text.Count

/-!
# Decimals that a table reads

A text writes a number with a sign, digits, a point before, among or after them, and an exponent. As
many of the digits are kept as surely fit a word; those after them count as zeros. What was kept is
scaled by powers of ten in extended precision and then rounded, so a text of more digits than a word
holds is not always read as the binary64 number nearest to it.
-/

namespace TableApi.Store

/-- **A decimal number**, `± significand · 10 ^ power`. -/
structure Decimal where
  negative : Bool
  significand : Nat
  power : Int
deriving DecidableEq, Repr, Inhabited

namespace Decimal

/-- A significand below this bound has room for any other digit in a word. -/
def roomBound : Nat := 1844674407370955160

/-- The significand and power with one more digit before the point. -/
def addWhole (x : Nat × Int) (c : Char) : Nat × Int :=
  if x.1 < roomBound then (x.1 * 10 + (c.toNat - 48), x.2) else (x.1, x.2 + 1)

/-- The significand and power with one more digit after the point. -/
def addFraction (x : Nat × Int) (c : Char) : Nat × Int :=
  if x.1 < roomBound then (x.1 * 10 + (c.toNat - 48), x.2 - 1) else x

/-- An exponent takes more digits while it is below this bound, which no binary64 number needs. -/
def exponentBound : Nat := 10000

/-- The size that the digits of an exponent write. Beyond the bound, sizes are not told apart. -/
def exponentSize (digits : List Char) : Nat :=
  digits.foldl
    (fun e c => if e < exponentBound then e * 10 + (c.toNat - 48) else exponentBound) 0

/-- The exponent that stands after the digits: absent, or a mark, an optional sign and digits. -/
def exponent? : List Char → Option Int
  | [] => some 0
  | mark :: rest =>
    let (negative, digits) := Text.cutSign rest
    if (mark = 'e' ∨ mark = 'E') ∧ Text.isDigits digits then
      some (if negative then -(exponentSize digits : Int) else exponentSize digits)
    else none

/-- The digits after a point and what stands after them. Without a point there are none. -/
def cutFraction : List Char → List Char × List Char
  | '.' :: rest => rest.span Char.isDigit
  | rest => ([], rest)

/-- **The decimal that a text writes**, if it has a digit and nothing is left over. -/
def ofChars? (s : List Char) : Option Decimal :=
  let (negative, s) := Text.cutSign s
  let (whole, s) := s.span Char.isDigit
  let (fraction, s) := cutFraction s
  if whole.isEmpty ∧ fraction.isEmpty then none
  else
    let (significand, power) := fraction.foldl addFraction (whole.foldl addWhole (0, 0))
    (exponent? s).map fun e => ⟨negative, significand, e + power⟩

/-- Powers of ten moved into a significand, as many as surely leave it a word: the significand, and
the size of the power that is left. -/
def raise (s : Nat) : Nat → Nat × Nat
  | 0 => (s, 0)
  | e + 1 => if s ≤ roomBound then raise (s * 10) e else (s, e + 1)

/-- Trailing zeros of a significand taken out, as many as there are powers to pay for them: the
significand, and the size of the power that is left. -/
def lower (s : Nat) : Nat → Nat × Nat
  | 0 => (s, 0)
  | e + 1 => if s % 10 = 0 then lower (s / 10) e else (s, e + 1)

/-- **The binary64 number that a decimal is read as**, or `none` when it is too large. -/
def toBinary64? (x : Decimal) : Option Binary64 :=
  if x.significand = 0 then Binary64.ofRatio? x.negative 0 1
  else
    let size := x.power.natAbs
    if x.power < 0 then
      let (s, e) := lower x.significand size
      ((Extended.ofWord s).scaleTen (-(e : Int))).toBinary64? x.negative
    else
      let (s, e) := raise x.significand size
      ((Extended.ofWord s).scaleTen e).toBinary64? x.negative

end Decimal

end TableApi.Store
