import TemplateEngine.Number.Word

/-!
# Binary floating point

A double precision number is its 64 bits, so that the two zeros and the sign of a NaN stay apart.
Comparison, truncation and rounding are exact integer arithmetic on the decoded number; sums,
products and quotients are those of the hardware.  `ofRatio` rounds an exact fraction to the
nearest number and is the only way from integers and decimals to floating point.
-/

namespace TemplateEngine

/-- A number of double precision, by its bits: sign, eleven bits of exponent, 52 of fraction. -/
structure Binary64 where
  bits : UInt64
deriving DecidableEq

namespace Binary64

/-! ### Decoding -/

/-- The weight of the sign bit, `2 ^ 63`. -/
def signBit : Nat := 0x8000000000000000

/-- The weight of the lowest bit of the exponent, `2 ^ 52`: the leading bit of a significand. -/
def hiddenBit : Nat := 0x10000000000000

/-- The sign bit is set. -/
def isNegative (x : Binary64) : Bool := signBit ≤ x.bits.toNat

/-- The bits without the sign, as a number; it grows with the absolute value. -/
def magnitude (x : Binary64) : Nat := x.bits.toNat % signBit

/-- The magnitude of the infinities. -/
def infinityMagnitude : Nat := 2047 * hiddenBit

/-- Not a number. -/
def isNaN (x : Binary64) : Bool := infinityMagnitude < x.magnitude

/-- Neither infinite nor a NaN. -/
def isFinite (x : Binary64) : Bool := x.magnitude < infinityMagnitude

/-- Either zero. -/
def isZero (x : Binary64) : Bool := x.magnitude == 0

/-- The biased exponent. -/
def biased (x : Binary64) : Nat := x.magnitude / hiddenBit

/-- The significand `m` of a finite number `m · 2 ^ e`. -/
def significand (x : Binary64) : Nat :=
  if x.biased = 0 then x.magnitude else hiddenBit + x.magnitude % hiddenBit

/-- The exponent `e` of a finite number `m · 2 ^ e`. -/
def exponent (x : Binary64) : Int := (max x.biased 1 : Nat) - 1075

/-- Numerator of the absolute value of a finite number. -/
def numerator (x : Binary64) : Nat := x.significand * Nat.pow 2 x.exponent.toNat

/-- Denominator of the absolute value of a finite number. -/
def denominator (x : Binary64) : Nat := Nat.pow 2 (-x.exponent).toNat

/-! ### Encoding -/

/-- The number with this sign and magnitude. -/
def ofMagnitude (negative : Bool) (magnitude : Nat) : Binary64 :=
  ⟨UInt64.ofNat (if negative then signBit + magnitude else magnitude)⟩

/-- The zero with this sign. -/
def zero (negative : Bool) : Binary64 := ofMagnitude negative 0

/-- The infinity with this sign. -/
def infinity (negative : Bool) : Binary64 := ofMagnitude negative infinityMagnitude

/-- The quiet NaN with this sign. -/
def nan (negative : Bool) : Binary64 := ofMagnitude negative (infinityMagnitude + hiddenBit / 2)

/-- The position of the leading bit of a positive fraction: `k` with
`2 ^ k ≤ num / den < 2 ^ (k + 1)`. -/
def leadingBit (num den : Nat) : Int :=
  let guess : Int := (num.log2 : Int) - den.log2
  if den * Nat.pow 2 guess.toNat ≤ num * Nat.pow 2 (-guess).toNat then guess else guess - 1

/-- A quotient rounded to the nearest integer, a half to the even one. -/
def divNearest (num den : Nat) : Nat :=
  let q := num / den
  let r := num % den
  if den < 2 * r || (2 * r == den && q % 2 == 1) then q + 1 else q

/-- A positive fraction rounded to `precision` bits, but to no bit below `2 ^ least`: the
significand and its exponent. -/
def nearest (precision : Nat) (least : Int) (num den : Nat) : Nat × Int :=
  let e := max (leadingBit num den + 1 - precision) least
  (divNearest (num * Nat.pow 2 (-e).toNat) (den * Nat.pow 2 e.toNat), e)

/-- The number nearest to `num / den` with this sign; of two equally near ones that with an even
significand, and an infinity beyond the largest number. -/
def ofRatio (negative : Bool) (num den : Nat) : Binary64 :=
  if num = 0 then zero negative
  else
    let (m, e) := nearest 53 (-1074) num den
    ofMagnitude negative (min ((e + 1074).toNat * hiddenBit + m) infinityMagnitude)

/-- The number nearest to an integer. -/
def ofInt (i : Int) : Binary64 := ofRatio (i < 0) i.natAbs 1

/-- The single precision number nearest to `num / den`, as one of double precision. -/
def ofRatioSingle (negative : Bool) (num den : Nat) : Binary64 :=
  if num = 0 then zero negative
  else
    let (m, e) := nearest 24 (-149) num den
    if Nat.pow 2 128 ≤ m * Nat.pow 2 e.toNat then infinity negative
    else ofRatio negative (m * Nat.pow 2 e.toNat) (Nat.pow 2 (-e).toNat)

/-! ### Comparison -/

/-- A key that orders the numbers other than NaN; both zeros have the key zero. -/
def key (x : Binary64) : Int := if x.isNegative then -x.magnitude else x.magnitude

/-- The order of two numbers; a NaN is ordered to nothing. -/
def order? (x y : Binary64) : Option Ordering :=
  if x.isNaN || y.isNaN then none else some (compare x.key y.key)

/-- Numerical equality: zeros are equal, a NaN equals nothing. -/
def equals (x y : Binary64) : Bool := !x.isNaN && !y.isNaN && x.key == y.key

/-- A key that orders all numbers: negative NaN, negative numbers, negative zero, zero, positive
numbers, NaN. -/
def totalKey (x : Binary64) : Int := if x.isNegative then -1 - x.magnitude else x.magnitude

/-! ### Integers -/

/-- A finite number without a fractional part. -/
def isIntegral (x : Binary64) : Bool := x.isFinite && x.numerator % x.denominator == 0

/-- The integer part of a finite number. -/
def truncate (x : Binary64) : Int :=
  let q := x.numerator / x.denominator
  if x.isNegative then -q else q

/-- Absolute values from this one on are not converted to words. -/
def wordLimit : Nat := 9200000000000000000

/-- The number is finite and small enough to be converted to a word. -/
def fitsWord (x : Binary64) : Bool := x.isFinite && x.numerator < wordLimit * x.denominator

/-- The word equal to the number. -/
def toWord? (x : Binary64) : Option Int64 :=
  if x.isIntegral && x.fitsWord then some (Int64.ofInt x.truncate) else none

/-- The largest integral number not above `x`. -/
def floor (x : Binary64) : Binary64 :=
  if x.isFinite then
    let q := x.numerator / x.denominator
    let inexact := x.numerator % x.denominator != 0
    ofRatio x.isNegative (if x.isNegative && inexact then q + 1 else q) 1
  else x

/-- The nearest integral number, a half to the even one. -/
def roundEven (x : Binary64) : Binary64 :=
  if x.isFinite then ofRatio x.isNegative (divNearest x.numerator x.denominator) 1 else x

/-! ### Arithmetic -/

/-- The number with the other sign. -/
def neg (x : Binary64) : Binary64 := ofMagnitude (!x.isNegative) x.magnitude

/-- The number without its sign. -/
def abs (x : Binary64) : Binary64 := ofMagnitude false x.magnitude

/-- The hardware number with the same bits. -/
def toFloat (x : Binary64) : Float := Float.ofBits x.bits

/-- A result of the hardware; a result that does not exist is the NaN with the sign bit set. -/
def ofFloat (f : Float) : Binary64 := if f.isNaN then nan true else ⟨f.toBits⟩

/-- An operation of the hardware; a NaN operand is handed on, the left one first. -/
def lift (op : Float → Float → Float) (x y : Binary64) : Binary64 :=
  if x.isNaN then x else if y.isNaN then y else ofFloat (op x.toFloat y.toFloat)

/-- The rounded sum. -/
def add (x y : Binary64) : Binary64 := lift (· + ·) x y

/-- The rounded difference. -/
def sub (x y : Binary64) : Binary64 := lift (· - ·) x y

/-- The rounded product. -/
def mul (x y : Binary64) : Binary64 := lift (· * ·) x y

/-- The rounded quotient. -/
def div (x y : Binary64) : Binary64 := lift (· / ·) x y

/-- The remainder of truncating division, with the sign of `x`; exact. -/
def mod (x y : Binary64) : Binary64 :=
  if x.isNaN then x
  else if y.isNaN then y
  else if !x.isFinite || y.isZero then nan true
  else if !y.isFinite then x
  else
    let r := (x.numerator * y.denominator) % (y.numerator * x.denominator)
    ofRatio x.isNegative r (x.denominator * y.denominator)

/-- The one. -/
def one : Binary64 := ofInt 1

/-- A power; the exponent zero and the base one give one for every other operand. -/
def pow (x y : Binary64) : Binary64 :=
  if y.isZero || x.equals one then one else lift Float.pow x y

/-- A power by repeated squaring, rounded at every step; `n` is read from its lowest bit. -/
def powNat (x : Binary64) (n : Nat) (acc : Binary64) : Binary64 :=
  let acc := if n % 2 = 1 then mul acc x else acc
  if n < 2 then acc else powNat (mul x x) (n / 2) acc
termination_by n

/-- The power of ten used for rounding to decimal places. -/
def tenPow (n : Int) : Binary64 :=
  let p := powNat (ofInt 10) n.natAbs one
  if n < 0 then div one p else p

end Binary64

end TemplateEngine
