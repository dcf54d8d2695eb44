/-!
# Machine integers

Integers of the template languages are words of 64 bits with a sign.  Arithmetic is done on exact
integers and the result is kept when it fits.
-/

namespace TemplateEngine.Number

/-- The word that stands for `i`, when one does. -/
def fit? (i : Int) : Option Int64 :=
  if -9223372036854775808 ≤ i ∧ i ≤ 9223372036854775807 then some (Int64.ofInt i) else none

/-- A word is what its value stands for. -/
theorem fit?_toInt (i : Int64) : fit? i.toInt = some i := by
  have hle := i.le_toInt
  have hlt := i.toInt_lt
  rw [fit?, if_pos (by omega), Int64.ofInt_toInt]

theorem toInt_of_fit? {i : Int} {w : Int64} (h : fit? i = some w) : w.toInt = i := by
  unfold fit? at h
  split at h
  · cases h
    exact Int64.toInt_ofInt_of_le (by omega) (by omega)
  · cases h

/-- The word of a truth value: one for true. -/
def ofBool (b : Bool) : Int64 := if b then 1 else 0

/-- The word of a count; counts of things held in memory always fit. -/
def ofCount (n : Nat) : Int64 := Int64.ofNat n

/-- The integers from `start` by `step`, as far as they do not reach `stop`; none for the step
zero. -/
def progression (start stop step : Int) : List Int :=
  let count :=
    if 0 < step then (stop - start + step - 1) / step else (start - stop - step - 1) / -step
  (List.range count.toNat).map fun (k : Nat) => start + k * step

/-- An integer in base ten. -/
def writeInt (i : Int) : String :=
  String.ofList ((if i < 0 then ['-'] else []) ++ Nat.toDigits 10 i.natAbs)

/-- The value of a digit from `0` to `9`. -/
def digitValue (c : Char) : Nat := c.toNat - '0'.toNat

/-- The value of a row of digits in base ten. -/
def ofDigits (cs : List Char) : Nat := cs.foldl (fun n c => 10 * n + digitValue c) 0

/-- A sign in front of a number, and what follows it. -/
def splitSign : List Char → Bool × List Char
  | '-' :: cs => (true, cs)
  | '+' :: cs => (false, cs)
  | cs => (false, cs)

/-- An integer between signs and nothing: an optional sign and one digit or more, all ASCII, whose
value fits a word. -/
def readInt? (cs : List Char) : Option Int64 :=
  let (negative, digits) := splitSign cs
  if digits.isEmpty || !digits.all Char.isDigit then none
  else fit? (if negative then -(ofDigits digits : Int) else ofDigits digits)

end TemplateEngine.Number
