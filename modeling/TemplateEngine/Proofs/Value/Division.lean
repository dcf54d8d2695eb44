import Mathlib.Tactic.Linarith
import TemplateEngine.Proofs.Value.Overflow

/-!
# Division

`//` and `%` on integers give the quotient rounded down and the remainder that goes with it
(`Value.floorDiv_mod`).  What these are is said without an operation of division: they give back the
dividend, and the remainder is zero or has the sign of the divisor and is smaller
(`IsFloorDivision`).  There is only one such pair (`IsFloorDivision.unique`).

Words are divided by truncation, which rounds quotients of different signs up.  So the truncated
quotient and remainder are each corrected, after a test of signs of their own
(`Number.floorQuotient`, `Number.floorRemainder`).  The corrections are operations on words that
would wrap around, and for no operands they do.
-/

namespace TemplateEngine

/-- `q` is the quotient of `x` by `y` rounded down, and `r` the remainder: they give back `x`, and
the remainder is zero or has the sign of `y` and is smaller. -/
structure IsFloorDivision (x y q r : Int) : Prop where
  eq : x = q * y + r
  remainder : r = 0 ∨ (r < 0 ↔ y < 0) ∧ r.natAbs < y.natAbs

/-- Two remainders are less than one divisor apart, and their difference is a multiple of it. -/
theorem IsFloorDivision.unique {x y q r q' r' : Int} (hy : y ≠ 0) (h : IsFloorDivision x y q r)
    (h' : IsFloorDivision x y q' r') : q = q' ∧ r = r' := by
  have hdiff : (q - q') * y = r' - r := by linarith [h.eq, h'.eq, sub_mul q q' y]
  have hsmall : (r' - r).natAbs < y.natAbs := by
    rcases h.remainder with h | h <;> rcases h'.remainder with h' | h' <;> omega
  have hq : q - q' = 0 := by
    by_contra hne
    have hlarge : 1 * y.natAbs ≤ (q - q').natAbs * y.natAbs :=
      Nat.mul_le_mul_right _ (Int.natAbs_pos.mpr hne)
    rw [← Int.natAbs_mul, hdiff] at hlarge
    omega
  rw [hq] at hdiff
  omega

theorem isFloorDivision_fdiv (x : Int) {y : Int} (hy : y ≠ 0) :
    IsFloorDivision x y (x.fdiv y) (x.fmod y) where
  eq := by linarith [Int.mul_fdiv_add_fmod x y, mul_comm y (x.fdiv y)]
  remainder := by
    rcases Int.lt_or_gt_of_ne hy with hneg | hpos
    · have hlow := Int.fmod_lt_of_pos (-x) (Int.neg_pos_of_neg hneg)
      have hhigh := Int.fmod_nonneg_of_pos (-x) (Int.neg_pos_of_neg hneg)
      rw [Int.neg_fmod_neg] at hlow hhigh
      omega
    · have hlow := Int.fmod_nonneg_of_pos x hpos
      have hhigh := Int.fmod_lt_of_pos x hpos
      omega

/-! ### Truncated division -/

theorem natAbs_tmod_lt (x : Int) {y : Int} (hy : y ≠ 0) : (x.tmod y).natAbs < y.natAbs := by
  rw [Int.natAbs_tmod]
  exact Nat.mod_lt _ (Int.natAbs_pos.mpr hy)

/-- A remainder of truncated division has the sign of the dividend. -/
theorem tmod_neg_iff {x y : Int} (h : x.tmod y ≠ 0) : x.tmod y < 0 ↔ x < 0 := by
  rcases Int.lt_or_le x 0 with hx | hx
  · have hneg : 0 ≤ (-x).tmod y := Int.tmod_nonneg y (by omega)
    rw [Int.neg_tmod] at hneg
    omega
  · have hpos : 0 ≤ x.tmod y := Int.tmod_nonneg y hx
    omega

/-- Where truncation leaves a remainder and the signs differ, the quotient is one less and the
remainder one divisor more. -/
theorem isFloorDivision_truncated (x : Int) {y : Int} (hy : y ≠ 0) :
    IsFloorDivision x y
      (if x.tmod y ≠ 0 ∧ ¬ (x < 0 ↔ y < 0) then x.tdiv y - 1 else x.tdiv y)
      (if x.tmod y ≠ 0 ∧ ¬ (x.tmod y < 0 ↔ y < 0) then x.tmod y + y else x.tmod y) := by
  have heq : x.tdiv y * y + x.tmod y = x := by
    rw [mul_comm]
    exact Int.mul_tdiv_add_tmod x y
  have hsmall := natAbs_tmod_lt x hy
  by_cases hr : x.tmod y = 0
  · rw [if_neg (by simp [hr]), if_neg (by simp [hr])]
    exact ⟨heq.symm, .inl hr⟩
  · -- both tests of signs come to the same
    simp only [tmod_neg_iff hr]
    have hsign := tmod_neg_iff hr
    by_cases hxy : x < 0 ↔ y < 0
    · rw [if_neg (by simp [hxy]), if_neg (by simp [hxy])]
      exact ⟨heq.symm, .inr ⟨hsign.trans hxy, hsmall⟩⟩
    · rw [if_pos ⟨hr, hxy⟩, if_pos ⟨hr, hxy⟩]
      exact ⟨by linarith [sub_mul (x.tdiv y) 1 y], .inr (by omega)⟩

/-! ### Words -/

namespace Number

/-- The quotient of words rounded down: the truncated quotient, and one less where there is a
remainder and the signs differ. -/
def floorQuotient (x y : Int64) : Int64 :=
  if x % y ≠ 0 ∧ ¬ (x < 0 ↔ y < 0) then x / y - 1 else x / y

/-- The remainder of words with the sign of the divisor: the truncated remainder, and one divisor
more where the signs differ. -/
def floorRemainder (x y : Int64) : Int64 :=
  if x % y ≠ 0 ∧ ¬ (x % y < 0 ↔ y < 0) then x % y + y else x % y

variable {x y : Int64}

theorem toInt_ne_zero (h : y ≠ 0) : y.toInt ≠ 0 := fun h' => h (Int64.toInt_inj.mp h')

/-- A truncated quotient fits a word, but for that of the least word by minus one. -/
theorem toInt_div (hxy : ¬ (x = Int64.minValue ∧ y = -1)) :
    (x / y).toInt = x.toInt.tdiv y.toInt := by
  by_cases hx : x = Int64.minValue
  · exact Int64.toInt_div_of_ne_right x y fun hy => hxy ⟨hx, hy⟩
  · exact Int64.toInt_div_of_ne_left x y hx

theorem toInt_mod_ne_zero : x % y ≠ 0 ↔ x.toInt.tmod y.toInt ≠ 0 := by
  rw [← Int64.toInt_mod, Ne, Ne, ← Int64.toInt_inj, Int64.toInt_zero]

/-- Taking one from the quotient does not wrap around: where there is a remainder the divisor is not
one or minus one, and the quotient not the least word. -/
theorem toInt_floorQuotient (hy : y ≠ 0) (hxy : ¬ (x = Int64.minValue ∧ y = -1)) :
    (floorQuotient x y).toInt =
      if x.toInt.tmod y.toInt ≠ 0 ∧ ¬ (x.toInt < 0 ↔ y.toInt < 0) then x.toInt.tdiv y.toInt - 1
      else x.toInt.tdiv y.toInt := by
  simp only [floorQuotient, toInt_mod_ne_zero, Int64.lt_iff_toInt_lt, Int64.toInt_zero]
  split
  · next h =>
    have hrem := natAbs_tmod_lt x.toInt (toInt_ne_zero hy)
    have hhalf : (x.toInt.tdiv y.toInt).natAbs ≤ x.toInt.natAbs / 2 := by
      rw [Int.natAbs_tdiv]
      exact Nat.div_le_div_left (by omega) (by decide)
    have hlow := x.le_toInt
    have hhigh := x.toInt_lt
    have hone : (1 : Int64).toInt = 1 := rfl
    rw [Int64.toInt_sub, toInt_div hxy, hone]
    exact bmod_of_fitsWord ⟨by omega, by omega⟩
  · exact toInt_div hxy

/-- Adding the divisor to the remainder does not wrap around: they are of different signs. -/
theorem toInt_floorRemainder :
    (floorRemainder x y).toInt =
      if x.toInt.tmod y.toInt ≠ 0 ∧ ¬ (x.toInt.tmod y.toInt < 0 ↔ y.toInt < 0) then
        x.toInt.tmod y.toInt + y.toInt
      else x.toInt.tmod y.toInt := by
  simp only [floorRemainder, toInt_mod_ne_zero, Int64.lt_iff_toInt_lt, Int64.toInt_zero,
    Int64.toInt_mod]
  split
  · next h =>
    have hlow := (x % y).le_toInt
    have hhigh := (x % y).toInt_lt
    have hlow' := y.le_toInt
    have hhigh' := y.toInt_lt
    rw [Int64.toInt_mod] at hlow hhigh
    rw [Int64.toInt_add, Int64.toInt_mod]
    exact bmod_of_fitsWord ⟨by omega, by omega⟩
  · exact Int64.toInt_mod x y

/-- The corrected words are the quotient rounded down and its remainder. -/
theorem isFloorDivision_words (hy : y ≠ 0) (hxy : ¬ (x = Int64.minValue ∧ y = -1)) :
    IsFloorDivision x.toInt y.toInt (floorQuotient x y).toInt (floorRemainder x y).toInt := by
  rw [toInt_floorQuotient hy hxy, toInt_floorRemainder]
  exact isFloorDivision_truncated x.toInt (toInt_ne_zero hy)

end Number

namespace Value

variable {a b : Value} {x y : Int64}

theorem ofExact_toInt (w : Int64) : ofExact w.toInt = .ok (.int w) := by
  obtain ⟨w', hw, hok⟩ := (isExact_ofExact w.toInt).1 ⟨w.le_toInt, w.toInt_lt⟩
  rw [hok, Int64.toInt_inj.mp hw]

/-- **Quotient and remainder.**  `//` and `%` of integers give the quotient rounded down and its
remainder, computed on words without wrapping around; by zero both fail.  The least word has no
quotient by minus one. -/
theorem floorDiv_mod (ha : a.asInt? = some x) (hb : b.asInt? = some y) :
    (y ≠ 0 → ¬ (x = Int64.minValue ∧ y = -1) →
      a.floorDiv b = .ok (.int (Number.floorQuotient x y)) ∧
        a.mod b = .ok (.int (Number.floorRemainder x y)) ∧
        IsFloorDivision x.toInt y.toInt (Number.floorQuotient x y).toInt
          (Number.floorRemainder x y).toInt) ∧
      (y = 0 → a.floorDiv b = .error (.render .divisionByZero none) ∧
        a.mod b = .error (.render .divisionByZero none) ∧
        (Error.render .divisionByZero none).message = "division by zero") := by
  constructor
  · intro hy hxy
    have hwords := Number.isFloorDivision_words hy hxy
    obtain ⟨hquotient, hremainder⟩ :=
      (isFloorDivision_fdiv x.toInt (Number.toInt_ne_zero hy)).unique (Number.toInt_ne_zero hy)
        hwords
    refine ⟨?_, ?_, hwords⟩
    · rw [floorDiv, numbers?_of_asInt? ha hb]
      simp only [hy, if_false]
      rw [hquotient, ofExact_toInt]
    · rw [mod, numbers?_of_asInt? ha hb]
      simp only [hy, hxy, if_false]
      rw [hremainder, ofExact_toInt]
  · rintro rfl
    rw [floorDiv, mod, numbers?_of_asInt? ha hb]
    exact ⟨rfl, rfl, rfl⟩

/-- The least word by three: the quotient is rounded away from zero and the remainder positive. -/
theorem floorDiv_mod_least :
    (Value.int Int64.minValue).asInt? = some Int64.minValue ∧ (Value.int 3).asInt? = some 3 ∧
      (Value.int Int64.minValue).floorDiv (.int 3) = .ok (.int (-3074457345618258603)) ∧
      (Value.int Int64.minValue).mod (.int 3) = .ok (.int 1) ∧
      IsFloorDivision (-9223372036854775808) 3 (-3074457345618258603) 1 ∧
      (Value.int 5).floorDiv (.bool false) = .error (.render .divisionByZero none) := by
  obtain ⟨hquotient, hremainder, hdivision⟩ :=
    (floorDiv_mod (a := .int Int64.minValue) (b := .int 3) rfl rfl).1 (by decide) (by decide)
  have hzero := (floorDiv_mod (a := .int 5) (b := .bool false) rfl rfl).2 rfl
  exact ⟨rfl, rfl, hquotient, hremainder, hdivision, hzero.1⟩

end Value

end TemplateEngine
