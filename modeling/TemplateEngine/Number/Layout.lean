import TemplateEngine.Number.Decimal

/-!
# Layouts of floating point numbers

How the shortest digits of a number are set out.  A layout says which decimal exponents are
written positionally, whether whole numbers keep a point and a zero, and how a NaN is spelled.
-/

namespace TemplateEngine

/-- A way to write a number. -/
structure Layout where
  /-- Decimal exponents from the first to below the second are positional; all are when absent. -/
  positional : Option (Int × Int)
  /-- Whole numbers in positional form end in a point and a zero. -/
  pointZero : Bool
  /-- The text for a NaN. -/
  nan : String

namespace Layout

/-- Output of the template languages: positional from `1e-4` to below `1e16`. -/
def value : Layout := ⟨some (-4, 16), true, "nan"⟩

/-- Numbers in messages about expressions: always positional, whole numbers bare. -/
def message : Layout := ⟨none, false, "NaN"⟩

/-- Numbers in messages about conversions: always positional, whole numbers with a point. -/
def pointed : Layout := ⟨none, true, "NaN"⟩

/-- A row of digits with the point `places` from its start, and zeros where digits lack. -/
def placePoint (pointZero : Bool) (digits : List Char) (places : Int) : List Char :=
  if places ≤ 0 then ['0', '.'] ++ List.replicate (-places).toNat '0' ++ digits
  else
    let whole := places.toNat
    if digits.length ≤ whole then
      digits ++ List.replicate (whole - digits.length) '0' ++ (if pointZero then ['.', '0'] else [])
    else digits.take whole ++ ['.'] ++ digits.drop whole

/-- One digit before the point, and an exponent with a sign and two digits or more. -/
def scientific (digits : List Char) (exponent : Int) : List Char :=
  let mantissa := digits.take 1 ++ (if digits.length ≤ 1 then [] else '.' :: digits.drop 1)
  let power := Nat.toDigits 10 exponent.natAbs
  mantissa ++ ['e', if exponent < 0 then '-' else '+'] ++
    List.replicate (2 - power.length) '0' ++ power

/-- A positive decimal set out. -/
def decimal (l : Layout) (d : Decimal) : List Char :=
  let digits := Nat.toDigits 10 d.digits
  let places := d.exponent + digits.length
  match l.positional with
  | none => placePoint l.pointZero digits places
  | some (least, limit) =>
    if least ≤ places - 1 ∧ places - 1 < limit then placePoint l.pointZero digits places
    else scientific digits (places - 1)

/-- A number set out. -/
def write (l : Layout) (x : Binary64) : String :=
  if x.isNaN then l.nan
  else
    let absolute :=
      if x.isZero then (if l.pointZero then ['0', '.', '0'] else ['0'])
      else if x.isFinite then l.decimal (.shortest x)
      else ['i', 'n', 'f']
    String.ofList ((if x.isNegative then ['-'] else []) ++ absolute)

end Layout

end TemplateEngine
