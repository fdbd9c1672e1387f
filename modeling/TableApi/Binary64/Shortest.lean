import TableApi.Binary64.Basic

/-!
# The shortest decimal text of a number

Of all decimals that round to a number, the text has the fewest digits, and among those the nearest
one. The digits are found grid by grid: for one digit, two digits, … seventeen digits, the two
neighbours of the value on the grid of that many digits are tried, in exact arithmetic.
-/

namespace TableApi.Binary64

/-- **A decimal.** The digits of `digits`, the value being `digits · 10 ^ exponent`. -/
structure Decimal where
  digits : Nat
  exponent : Int
deriving DecidableEq, Repr

/-- The decimal as a fraction. -/
def Decimal.ratio (x : Decimal) : Nat × Nat :=
  if x.exponent < 0 then (x.digits, tenPow x.exponent.natAbs)
  else (x.digits * tenPow x.exponent.natAbs, 1)

/-- The decimal rounds to the magnitude of `x`. -/
def Decimal.roundsTo (y : Decimal) (x : Binary64) : Bool :=
  ofRatio? false y.ratio.1 y.ratio.2 == some (ofMagnitudeBits false x.magnitudeBits)

/-- The exponent of the power of ten at or below the fraction `n / d`, found from the power of
two. -/
def ratioLog10 (n d : Nat) : Int :=
  let guess : Int := ratioLog2 n d * 30103 / 100000
  let reaches (e : Int) : Bool :=
    if e < 0 then d ≤ n * tenPow e.natAbs else d * tenPow e.natAbs ≤ n
  if reaches (guess + 1) then guess + 1 else if reaches guess then guess else guess - 1

/-- The neighbours of the magnitude of `x` on the grid of `count` digits: below, and above. -/
def neighbours (x : Binary64) (count : Nat) : Decimal × Decimal :=
  let (n, d) := x.ratio
  let e := ratioLog10 n d - (count - 1)
  let low := if e < 0 then n * tenPow e.natAbs / d else n / (d * tenPow e.natAbs)
  (⟨low, e⟩, ⟨low + 1, e⟩)

/-- The decimal below is no farther from the magnitude of `x` than the one above. -/
def lowIsNearer (x : Binary64) (low high : Decimal) : Bool :=
  let (n, d) := x.ratio
  let (ln, ld) := low.ratio
  let (hn, hd) := high.ratio
  2 * n * (ld * hd) < d * (ln * hd + hn * ld) ||
    (2 * n * (ld * hd) == d * (ln * hd + hn * ld) && low.digits % 2 == 0)

/-- The nearest decimal of `count` digits that rounds to the magnitude of `x`. -/
def onGrid? (x : Binary64) (count : Nat) : Option Decimal :=
  let (low, high) := x.neighbours count
  match low.roundsTo x, high.roundsTo x with
  | true, true => some (if x.lowIsNearer low high then low else high)
  | true, false => some low
  | false, true => some high
  | false, false => none

/-- The shortest decimal of a magnitude above zero; seventeen digits always suffice. -/
def shortest (x : Binary64) : Decimal :=
  ((List.range 17).findSome? fun i => x.onGrid? (i + 1)).getD (x.neighbours 17).1

/-- **Float notation.** Which exponents of the leading digit are written out in positions, the
others taking a mark, a sign and the exponent. -/
structure FloatFormat where
  /-- Least exponent written in positions. -/
  least : Int
  /-- Greatest exponent written in positions. -/
  greatest : Int

/-- JSON numbers are written in positions from `1e-5` up to, not including, `1e16`. -/
def jsonFloat : FloatFormat := ⟨-5, 15⟩

/-- The digits of a decimal with trailing zeros moved into the exponent. -/
def Decimal.normal (x : Decimal) : List Char × Int :=
  let ds := Nat.toDigits 10 x.digits
  let zeros := (ds.reverse.takeWhile (· == '0')).length
  (ds.take (ds.length - zeros), x.exponent + zeros)

/-- The text of the digits `ds` with value `0.ds · 10 ^ (lead + 1)`. -/
def FloatFormat.write (f : FloatFormat) (ds : List Char) (lead : Int) : List Char :=
  if f.least ≤ lead ∧ lead ≤ f.greatest then
    if lead < 0 then
      '0' :: '.' :: (List.replicate (lead.natAbs - 1) '0' ++ ds)
    else
      let whole := lead.natAbs + 1
      let padded := ds ++ List.replicate (whole - ds.length) '0'
      let rest := padded.drop whole
      padded.take whole ++ '.' :: (if rest.isEmpty then ['0'] else rest)
  else
    let mark := if lead < 0 then ['e', '-'] else ['e', '+']
    let rest := ds.drop 1
    ds.take 1 ++ (if rest.isEmpty then [] else '.' :: rest) ++ mark ++ Nat.toDigits 10 lead.natAbs

/-- **The text of a finite number.** -/
def chars (x : Binary64) : List Char :=
  let sign := if x.negative then ['-'] else []
  if x.magnitudeBits = 0 then sign ++ ['0', '.', '0']
  else
    let (ds, e) := x.shortest.normal
    sign ++ jsonFloat.write ds (e + ds.length - 1)

example : (⟨0x3FB999999999999A⟩ : Binary64).chars = "0.1".toList := by decide +kernel
example : (⟨0x43F0000000000000⟩ : Binary64).chars = "1.8446744073709552e+19".toList := by
  decide +kernel
example : (⟨0xC059000000000000⟩ : Binary64).chars = "-100.0".toList := by decide +kernel

end TableApi.Binary64
