import TemplateEngine.Error
import TemplateEngine.Value.Equality

/-!
# Operators on values

Integer arithmetic is exact and reports a result that fits no word; mixed arithmetic is floating
point.  Division and remainder go with the floor, so the remainder has the sign of the divisor.
`+`, `*`, `-`, `|`, `&` and `^` also join, repeat and combine containers.
-/

namespace TemplateEngine.Value

/-- Failure for operands that a binary operator does not take. -/
def unsupported (op : String) (a b : Value) : Except Error Value :=
  fail (.unsupportedOperands op a.typeName b.typeName)

/-- The value of an exact integer, if it fits a word. -/
def ofExact (i : Int) : Except Error Value :=
  match Number.fit? i with
  | some w => .ok (.int w)
  | none => fail .overflow

/-- Both operands are numbers. -/
def numbers? (a b : Value) : Option (Numeric × Numeric) :=
  match a.number?, b.number? with
  | some x, some y => some (x, y)
  | _, _ => none

/-- Exact arithmetic on two integers, floating point as soon as one operand is. -/
def arithmetic (onInt : Int → Int → Int) (onFloat : Binary64 → Binary64 → Binary64) :
    Numeric → Numeric → Except Error Value
  | .int x, .int y => ofExact (onInt x.toInt y.toInt)
  | x, y => .ok (.float (onFloat x.toFloat y.toFloat))

/-! ### Sums, differences and products -/

/-- `a + b`: the sum of numbers, and strings, lists and tuples joined. -/
def add (a b : Value) : Except Error Value :=
  match numbers? a b with
  | some (x, y) => arithmetic (· + ·) Binary64.add x y
  | none =>
    match a, b with
    | .str s, .str t => .ok (.str (s ++ t))
    | .list xs, .list ys => .ok (.list (xs ++ ys))
    | .tuple xs, .tuple ys => .ok (.tuple (xs ++ ys))
    | a, b => unsupported "+" a b

/-- The items of the first set that are not in the second. -/
def difference (xs ys : List Value) : List Value := xs.filter fun x => !x.memberOf ys

/-- The items of the first set that are in the second. -/
def intersection (xs ys : List Value) : List Value := xs.filter fun x => x.memberOf ys

/-- `a - b`: the difference of numbers and of sets. -/
def sub (a b : Value) : Except Error Value :=
  match numbers? a b with
  | some (x, y) => arithmetic (· - ·) Binary64.sub x y
  | none =>
    match a, b with
    | .set xs, .set ys => .ok (.set (difference xs ys))
    | a, b => unsupported "-" a b

/-- A string, list or tuple `n` times over. -/
def repeated? (v : Value) (n : Nat) : Option Value :=
  match v with
  | .str s => some (.str (String.ofList (List.replicate n s.toList).flatten))
  | .list xs => some (.list (List.replicate n xs).flatten)
  | .tuple xs => some (.tuple (List.replicate n xs).flatten)
  | _ => none

/-- `a * b`: the product of numbers, and a sequence repeated; a negative count repeats nothing. -/
def mul (a b : Value) : Except Error Value :=
  match numbers? a b with
  | some (x, y) => arithmetic (· * ·) Binary64.mul x y
  | none =>
    let product :=
      match a.asInt?, b.asInt? with
      | _, some n => repeated? a n.toInt.toNat
      | some n, none => repeated? b n.toInt.toNat
      | none, none => none
    match product with
    | some v => .ok v
    | none => unsupported "*" a b

/-! ### Quotients and powers -/

/-- `a / b`, always in floating point. -/
def trueDiv (a b : Value) : Except Error Value :=
  match numbers? a b with
  | none => unsupported "/" a b
  | some (x, y) =>
    if y.toFloat.isZero then fail .divisionByZero
    else .ok (.float (x.toFloat.div y.toFloat))

/-- `a // b`: the quotient rounded down. -/
def floorDiv (a b : Value) : Except Error Value :=
  match numbers? a b with
  | none => unsupported "//" a b
  | some (.int x, .int y) =>
    if y = 0 then fail .divisionByZero else ofExact (x.toInt.fdiv y.toInt)
  | some (x, y) =>
    if y.toFloat.isZero then fail .divisionByZero
    else .ok (.float (x.toFloat.div y.toFloat).floor)

/-- The remainder in floating point with the sign of the divisor. -/
def floatMod (x y : Binary64) : Binary64 :=
  let r := x.mod y
  if !r.isZero && (r.order? (.zero false) == some .lt) != (y.order? (.zero false) == some .lt)
  then r.add y
  else r

/-- `a % b`: the remainder that goes with the quotient rounded down.  The least word has no
remainder by minus one, because the quotient fits no word. -/
def mod (a b : Value) : Except Error Value :=
  match numbers? a b with
  | none => unsupported "%" a b
  | some (.int x, .int y) =>
    if y = 0 then fail .divisionByZero
    else if x = Int64.minValue ∧ y = -1 then fail .overflow
    else ofExact (x.toInt.fmod y.toInt)
  | some (x, y) =>
    if y.toFloat.isZero then fail .divisionByZero
    else .ok (.float (floatMod x.toFloat y.toFloat))

/-- The exact power of a word, if it fits one.  From the exponent 64 on only the powers of zero,
one and minus one do. -/
def power? (x : Int) (n : Nat) : Option Int64 :=
  if x.natAbs ≤ 1 then Number.fit? (if n = 0 then 1 else if n % 2 = 0 then x * x else x)
  else if n < 64 then Number.fit? (x.pow n)
  else none

/-- `a ** b`: exact for integers with an exponent that is not negative and below `2 ^ 32`. -/
def pow (a b : Value) : Except Error Value :=
  let inFloat (x y : Binary64) : Except Error Value :=
    if x.isZero && y.order? (.zero false) == some .lt then fail .zeroToNegativePower
    else .ok (.float (x.pow y))
  match numbers? a b with
  | none => unsupported "**" a b
  | some (.int x, .int y) =>
    if 0 ≤ y then
      if 4294967295 < y.toInt then fail .overflow
      else
        match power? x.toInt y.toInt.toNat with
        | some p => .ok (.int p)
        | none => fail .overflow
    else inFloat (.ofInt x.toInt) (.ofInt y.toInt)
  | some (x, y) => inFloat x.toFloat y.toFloat

/-! ### Bits, sets and dicts -/

/-- An operation on the bits of two integers. -/
def onBits (op : String) (f : Int64 → Int64 → Int64) (a b : Value) : Except Error Value :=
  match a.asInt?, b.asInt? with
  | some x, some y => .ok (.int (f x y))
  | _, _ => unsupported op a b

/-- `a | b`: truth values, integers, and the union of sets and of dicts. -/
def bitOr (a b : Value) : Except Error Value :=
  match a, b with
  | .bool x, .bool y => .ok (.bool (x || y))
  | .set xs, .set ys => .ok (.set (xs ++ difference ys xs))
  | .dict es, .dict fs => .ok (.dict (insertAll es fs))
  | a, b => onBits "|" (· ||| ·) a b

/-- `a & b`: truth values, integers, and the intersection of sets. -/
def bitAnd (a b : Value) : Except Error Value :=
  match a, b with
  | .bool x, .bool y => .ok (.bool (x && y))
  | .set xs, .set ys => .ok (.set (intersection xs ys))
  | a, b => onBits "&" (· &&& ·) a b

/-- `a ^ b`: truth values, integers, and what is in exactly one of two sets. -/
def bitXor (a b : Value) : Except Error Value :=
  match a, b with
  | .bool x, .bool y => .ok (.bool (x != y))
  | .set xs, .set ys => .ok (.set (difference xs ys ++ difference ys xs))
  | a, b => onBits "^" (· ^^^ ·) a b

/-- `a << b`.  A count of 63 or more overflows whatever is shifted, zero apart. -/
def shiftLeft (a b : Value) : Except Error Value :=
  match a.asInt?, b.asInt? with
  | some x, some y =>
    if y < 0 then fail .negativeShift
    else if x = 0 then .ok (.int 0)
    else if 63 ≤ y then fail .overflow
    else ofExact (x.toInt * Nat.pow 2 y.toInt.toNat)
  | _, _ => unsupported "<<" a b

/-- `a >> b`, rounded down. -/
def shiftRight (a b : Value) : Except Error Value :=
  match a.asInt?, b.asInt? with
  | some x, some y =>
    if y < 0 then fail .negativeShift
    else ofExact (x.toInt.fdiv (Nat.pow 2 (min y.toInt.toNat 64)))
  | _, _ => unsupported ">>" a b

/-! ### Signs -/

/-- `-a` -/
def neg (a : Value) : Except Error Value :=
  match a.number? with
  | some (.int i) => ofExact (-i.toInt)
  | some (.float x) => .ok (.float x.neg)
  | none => fail (.badOperand "-" a.typeName)

/-- `+a`; a truth value becomes an integer. -/
def pos (a : Value) : Except Error Value :=
  match a.number? with
  | some (.int i) => .ok (.int i)
  | some (.float x) => .ok (.float x)
  | none => fail (.badOperand "+" a.typeName)

/-- `~a` -/
def invert (a : Value) : Except Error Value :=
  match a.asInt? with
  | some i => .ok (.int (~~~i))
  | none => fail (.badOperand "~" a.typeName)

end TemplateEngine.Value
