import TemplateEngine.Number.Binary64

/-!
# Shortest decimals

The decimal with the fewest digits that reads back as a given number, the nearest of those, and
of two equally near ones the larger.
-/

namespace TemplateEngine

/-- The decimal `digits · 10 ^ exponent`. -/
structure Decimal where
  digits : Nat
  exponent : Int
deriving DecidableEq

namespace Decimal

/-- How many digits a number has in base ten. -/
def digitCount (n : Nat) : Nat := (Nat.toDigits 10 n).length

/-- The decimal exponent of a positive fraction: `k` with `10 ^ k ≤ num / den < 10 ^ (k + 1)`. -/
def decimalExponent (num den : Nat) : Int :=
  if den ≤ num then (digitCount (num / den) : Int) - 1 else -(digitCount ((den - 1) / num) : Int)

/-- The numbers that round to a given one: four times its significand lies between the bounds, in
units of `unitNum / unitDen`; the bounds belong to the interval when `closed`. -/
structure Interval where
  low : Nat
  value : Nat
  high : Nat
  unitNum : Nat
  unitDen : Nat
  closed : Bool

/-- The numbers that round to a positive finite one.  Below a power of two the neighbour is at
half the distance. -/
def Interval.around (x : Binary64) : Interval :=
  let m := x.significand
  let e := x.exponent - 2
  { low := if m = Binary64.hiddenBit ∧ 1 < x.biased then 4 * m - 1 else 4 * m - 2
    value := 4 * m
    high := 4 * m + 2
    unitNum := Nat.pow 2 e.toNat
    unitDen := Nat.pow 2 (-e).toNat
    closed := m % 2 == 0 }

/-- The fraction `num / den` lies in the interval. -/
def Interval.holds (i : Interval) (num den : Nat) : Bool :=
  let x := num * i.unitDen
  let low := i.low * i.unitNum * den
  let high := i.high * i.unitNum * den
  if i.closed then low ≤ x && x ≤ high else low < x && x < high

/-- Of the two neighbours of the value on the grid of step `10 ^ exponent`, the one in the
interval; the nearer if both are, the upper if they are equally near. -/
def onGrid? (i : Interval) (exponent : Int) : Option Decimal :=
  let p := Nat.pow 10 exponent.toNat
  let q := Nat.pow 10 (-exponent).toNat
  let num := i.value * i.unitNum * q
  let den := i.unitDen * p
  let below := num / den
  let lower := i.holds (below * p) q
  let upper := i.holds ((below + 1) * p) q
  if lower && (!upper || 2 * (num % den) < den) then some ⟨below, exponent⟩
  else if upper then some ⟨below + 1, exponent⟩
  else none

/-- The first grid with a hit, from the step `10 ^ exponent` on to finer ones. -/
def search (i : Interval) : Nat → Int → Decimal
  | 0, exponent => (onGrid? i exponent).getD ⟨0, 0⟩
  | n + 1, exponent => (onGrid? i exponent).getD (search i n (exponent - 1))

/-- The decimal without zeros at its end; at most `n` are taken away. -/
def dropZeros : Nat → Decimal → Decimal
  | 0, d => d
  | n + 1, d =>
    if d.digits ≠ 0 ∧ d.digits % 10 = 0 then dropZeros n ⟨d.digits / 10, d.exponent + 1⟩ else d

/-- The shortest decimal that reads back as a finite number other than zero.  Seventeen digits
always suffice. -/
def shortest (x : Binary64) : Decimal :=
  dropZeros 17 (search (.around x) 16 (decimalExponent x.numerator x.denominator))

end Decimal

end TemplateEngine
