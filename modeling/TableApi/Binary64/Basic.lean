/-!
# Binary floating-point numbers of 64 bits

A finite number is a sign and a magnitude `m · 2 ^ q` with `m < 2 ^ 53`. Every operation here is
exact arithmetic on natural numbers followed by one rounding to the nearest representable magnitude,
ties to the even one, so a proof sees all of it.
-/

namespace TableApi

/-- **A binary64 number**, held as its bits. -/
structure Binary64 where
  /-- Sign, eleven bits of exponent, fifty-two bits of fraction. -/
  bits : UInt64
deriving DecidableEq, Repr, Inhabited

namespace Binary64

/-- The power `2 ^ k`. -/
def twoPow (k : Nat) : Nat :=
  Nat.pow 2 k

/-- The power `10 ^ k`. -/
def tenPow (k : Nat) : Nat :=
  Nat.pow 10 k

/-- The sign bit is set. -/
def negative (x : Binary64) : Bool :=
  x.bits.toNat ≥ twoPow 63

/-- The bits without the sign. They order magnitudes as numbers. -/
def magnitudeBits (x : Binary64) : Nat :=
  x.bits.toNat % twoPow 63

/-- The mantissa `m` of the magnitude `m · 2 ^ q`. -/
def mantissa (x : Binary64) : Nat :=
  let b := x.magnitudeBits
  if b < twoPow 52 then b else b % twoPow 52 + twoPow 52

/-- The exponent `q` of the magnitude `m · 2 ^ q`. -/
def exponent (x : Binary64) : Int :=
  let b := x.magnitudeBits
  if b < twoPow 52 then -1074 else (b / twoPow 52 : Nat) - 1075

/-- The magnitude as a fraction: numerator and denominator. -/
def ratio (x : Binary64) : Nat × Nat :=
  if x.exponent < 0 then (x.mantissa, twoPow x.exponent.natAbs)
  else (x.mantissa * twoPow x.exponent.natAbs, 1)

/-- The whole number nearest to `n / d`, a tie going to the even one. -/
def roundDiv (n d : Nat) : Nat :=
  let k := n / d
  let r := n % d
  if 2 * r > d ∨ (2 * r = d ∧ k % 2 = 1) then k + 1 else k

/-- The power of two at or below `n / d`, as its exponent. -/
def ratioLog2 (n d : Nat) : Int :=
  let e : Int := (n.log2 : Int) - d.log2
  let reaches := if e < 0 then d ≤ n * twoPow e.natAbs else d * twoPow e.natAbs ≤ n
  if reaches then e else e - 1

/-- The number of this sign bit and magnitude bits. -/
def ofMagnitudeBits (negative : Bool) (b : Nat) : Binary64 :=
  ⟨UInt64.ofNat (if negative then b + twoPow 63 else b)⟩

/-- **Rounding.** The number nearest to `± n / d`, or `none` when the magnitude is too large. The
exponent field and the mantissa are added, so a mantissa that rounds up to `2 ^ 53` carries into
the exponent by itself. -/
def ofRatio? (negative : Bool) (n d : Nat) : Option Binary64 :=
  if n = 0 then some (ofMagnitudeBits negative 0)
  else
    let q := max (ratioLog2 n d - 52) (-1074)
    let m := if q < 0 then roundDiv (n * twoPow q.natAbs) d else roundDiv n (d * twoPow q.natAbs)
    let b := (q + 1074).toNat * twoPow 52 + m
    if b < 0x7FF * twoPow 52 then some (ofMagnitudeBits negative b) else none

/-- The magnitude times ten to a power whose own value is rounded first; `none` on overflow. -/
def timesTen? (x : Binary64) (power : Nat) : Option Binary64 := do
  let p ← ofRatio? false (tenPow power) 1
  let (n, d) := x.ratio
  let (pn, pd) := p.ratio
  ofRatio? x.negative (n * pn) (d * pd)

/-- The magnitude divided by ten to a power whose own value is rounded first. -/
def overTen? (x : Binary64) (power : Nat) : Option Binary64 := do
  let p ← ofRatio? false (tenPow power) 1
  let (n, d) := x.ratio
  let (pn, pd) := p.ratio
  ofRatio? x.negative (n * pd) (d * pn)

/-- The number with the sign bit set or cleared. -/
def withSign (negative : Bool) (x : Binary64) : Binary64 :=
  ofMagnitudeBits negative x.magnitudeBits

/-- The largest power of ten that a number holds. -/
def maxTen : Nat := 308

/-- The number divided by the largest power of ten so many times, ending early at zero. -/
def overLargestTen? (x : Binary64) : Nat → Option Binary64
  | 0 => some x
  | k + 1 =>
    if x.magnitudeBits = 0 then some x else (x.overTen? maxTen).bind (overLargestTen? · k)

/-- **Scaling.** `x · 10 ^ e`, by one multiplication or division where there is a power of ten for
it; a smaller exponent takes divisions by the largest power first. `none` when the result is too
large. -/
def scaleTen? (x : Binary64) (e : Int) : Option Binary64 :=
  let size := e.natAbs
  if 0 ≤ e then
    if size ≤ maxTen then x.timesTen? size else if x.magnitudeBits = 0 then some x else none
  else
    let steps := (size - 1) / maxTen
    (x.overLargestTen? steps).bind (·.overTen? (size - maxTen * steps))

example : ofRatio? false 1 10 = some ⟨0x3FB999999999999A⟩ := by decide +kernel
example : ofRatio? true 1 1 = some ⟨0xBFF0000000000000⟩ := by decide +kernel

end Binary64

end TableApi
