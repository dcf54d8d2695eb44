import TemplateEngine.Number.Decimal

/-!
# Reading floating point numbers

A number is an optional sign and `inf`, `infinity` or `nan` in any case, or digits with an
optional point and an optional exponent.  There is a digit before the exponent, and no blank
anywhere.  The decimal is exact and is rounded once.
-/

namespace TemplateEngine

/-- What a text denotes, before rounding. -/
inductive Numeral where
  | decimal (digits : Nat) (exponent : Int)
  | infinity
  | nan
deriving DecidableEq

namespace Numeral

/-- The exponent at the end of a number: nothing, or `e` and an integer. -/
def exponent? : List Char → Option Int
  | [] => some 0
  | c :: cs =>
    if c == 'e' || c == 'E' then
      let (negative, digits) := Number.splitSign cs
      if digits.isEmpty || !digits.all Char.isDigit then none
      else some (if negative then -(Number.ofDigits digits : Int) else Number.ofDigits digits)
    else none

/-- Digits with an optional point and an optional exponent. -/
def decimal? (cs : List Char) : Option Numeral :=
  let whole := cs.takeWhile Char.isDigit
  let rest := cs.dropWhile Char.isDigit
  let (fraction, rest) :=
    match rest with
    | '.' :: rest => (rest.takeWhile Char.isDigit, rest.dropWhile Char.isDigit)
    | rest => ([], rest)
  if whole.isEmpty && fraction.isEmpty then none
  else
    (exponent? rest).map fun e =>
      .decimal (Number.ofDigits (whole ++ fraction)) (e - fraction.length)

/-- A number without its sign. -/
def unsigned? (cs : List Char) : Option Numeral :=
  let word := String.ofList (cs.map Char.toLower)
  if word == "inf" || word == "infinity" then some .infinity
  else if word == "nan" then some .nan
  else decimal? cs

/-- A sign and a number. -/
def read? (cs : List Char) : Option (Bool × Numeral) :=
  let (negative, rest) := Number.splitSign cs
  (unsigned? rest).map fun n => (negative, n)

/-- The number rounded by `round`, which is given numerator and denominator; decimals far outside
the range of all formats are not expanded. -/
def toBinary64 (round : Bool → Nat → Nat → Binary64) (negative : Bool) : Numeral → Binary64
  | .infinity => .infinity negative
  | .nan => .nan negative
  | .decimal digits exponent =>
    let places := Decimal.digitCount digits + exponent
    if digits = 0 ∨ places < -400 then .zero negative
    else if 400 < places then .infinity negative
    else round negative (digits * Nat.pow 10 exponent.toNat) (Nat.pow 10 (-exponent).toNat)

end Numeral

namespace Binary64

/-- The double precision number that a text denotes. -/
def read? (cs : List Char) : Option Binary64 :=
  (Numeral.read? cs).map fun (negative, n) => n.toBinary64 ofRatio negative

/-- The single precision number that a text denotes, as one of double precision. -/
def readSingle? (cs : List Char) : Option Binary64 :=
  (Numeral.read? cs).map fun (negative, n) => n.toBinary64 ofRatioSingle negative

end Binary64

end TemplateEngine
