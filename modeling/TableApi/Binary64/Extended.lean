import TableApi.Binary64.Basic

/-!
# Numbers of extended precision

Magnitudes `m · 2 ^ q` whose mantissa has 64 bits, eleven more than a binary64 number has. A product
is rounded once, to the nearest such magnitude, ties to the even one. The exponent has no bounds, so
a magnitude is too large only when it is made a binary64 number again.
-/

namespace TableApi

/-- **A magnitude of extended precision**, `mantissa · 2 ^ exponent`. -/
structure Extended where
  mantissa : Nat
  exponent : Int
deriving DecidableEq, Repr, Inhabited

namespace Extended

/-- A whole number below `2 ^ 64`. It is exact. -/
def ofWord (n : Nat) : Extended :=
  ⟨n, 0⟩

/-- The magnitude nearest to `n / d`. -/
def ofRatio (n d : Nat) : Extended :=
  let q := Binary64.ratioLog2 n d - 63
  if q < 0 then ⟨Binary64.roundDiv (n * Binary64.twoPow q.natAbs) d, q⟩
  else ⟨Binary64.roundDiv n (d * Binary64.twoPow q.natAbs), q⟩

/-- The product, rounded. -/
def mul (x y : Extended) : Extended :=
  let p := ofRatio (x.mantissa * y.mantissa) 1
  { p with exponent := p.exponent + x.exponent + y.exponent }

/-- The product with a factor, so many times over. Each product is rounded. -/
def mulTimes (x factor : Extended) (count : Nat) : Extended :=
  (List.replicate count factor).foldl mul x

/-- The power of ten of a size, or its inverse, as one rounded magnitude. -/
def ten (inverse : Bool) (size : Nat) : Extended :=
  if inverse then ofRatio 1 (Binary64.tenPow size) else ofRatio (Binary64.tenPow size) 1

/-- **Scaling.** `x · 10 ^ e`, by factors of a hundred powers, of ten and of one. -/
def scaleTen (x : Extended) (e : Int) : Extended :=
  let factor := ten (e < 0)
  let size := e.natAbs
  ((x.mulTimes (factor 100) (size / 100)).mulTimes (factor 10) (size % 100 / 10)).mulTimes
    (factor 1) (size % 10)

/-- The nearest binary64 number of a sign, or `none` when the magnitude is too large. -/
def toBinary64? (negative : Bool) (x : Extended) : Option Binary64 :=
  if x.exponent < 0 then
    Binary64.ofRatio? negative x.mantissa (Binary64.twoPow x.exponent.natAbs)
  else Binary64.ofRatio? negative (x.mantissa * Binary64.twoPow x.exponent.natAbs) 1

example : ofRatio 1 10 = ⟨0xCCCCCCCCCCCCCCCD, -67⟩ := by decide +kernel
example : ((ofWord 15).scaleTen (-1)).toBinary64? false = some ⟨0x3FF8000000000000⟩ := by
  decide +kernel

end Extended

end TableApi
