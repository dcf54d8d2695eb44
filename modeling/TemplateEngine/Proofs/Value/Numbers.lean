import TemplateEngine.Proofs.Value.Comparison
import TemplateEngine.Value.Hash

/-!
# Equality of numbers

Equality of numbers is symmetric and transitive across integers and floating point numbers, and
equal numbers are hashed alike.  The word that a number equals decides both: numbers with a word are
equal when the words are (`Numeric.equals_of_toWord?`), and numbers without one are floating point
numbers, whose keys decide.
-/

namespace TemplateEngine

namespace Binary64

variable {x y : Binary64}

theorem equals_iff_key :
    x.equals y = true ↔ x.isNaN = false ∧ y.isNaN = false ∧ x.key = y.key := by
  simp [equals, and_assoc]

/-- Equal keys are those of one number or of the two zeros. -/
theorem eq_or_isZero_of_key (h : x.key = y.key) : x = y ∨ x.isZero = true ∧ y.isZero = true := by
  have hx := x.bits.toNat_lt
  have hy := y.bits.toNat_lt
  by_cases hbits : x.bits.toNat = y.bits.toNat
  · exact .inl (eq_of_bits hbits)
  · -- numbers of one key that differ, differ in the sign only
    refine .inr ?_
    unfold key isNegative magnitude signBit at h
    simp only [isZero, magnitude, signBit, beq_iff_eq]
    simp only [decide_eq_true_eq] at h
    split at h <;> split at h <;> omega

theorem toWord?_of_isZero (h : x.isZero = true) : x.toWord? = some 0 := by
  have hm : x.magnitude = 0 := by simpa [isZero] using h
  have hnum : x.numerator = 0 := by simp [numerator, significand, biased, hm]
  have hfinite : x.isFinite = true := by
    rw [isFinite, hm]
    decide
  have hfits : x.fitsWord = true := by
    have hlimit : 0 < wordLimit * x.denominator := Nat.mul_pos (by decide) x.denominator_pos
    simp [fitsWord, hfinite, hnum, hlimit]
  have htrunc : x.truncate = 0 := by simp [truncate, hnum]
  simp [toWord?, isIntegral, hfinite, hfits, hnum, htrunc]

theorem isNaN_of_toWord? {i : Int64} (h : x.toWord? = some i) : x.isNaN = false := by
  obtain ⟨-, hfits⟩ := toWord?_eq_some_iff.mp h
  have hfinite : x.isFinite = true := (Bool.and_eq_true_iff.mp hfits).1
  simp only [isFinite, decide_eq_true_eq] at hfinite
  simp only [isNaN, decide_eq_false_iff_not]
  omega

theorem toWord?_of_equals (h : x.equals y = true) : x.toWord? = y.toWord? := by
  obtain ⟨-, -, hkey⟩ := equals_iff_key.mp h
  rcases eq_or_isZero_of_key hkey with rfl | ⟨hx, hy⟩
  · rfl
  · rw [toWord?_of_isZero hx, toWord?_of_isZero hy]

end Binary64

namespace Numeric

variable {x y z : Numeric}

theorem equals_symm (h : x.equals y = true) : y.equals x = true := by
  cases x with
  | int i =>
    cases y with
    | int j => exact beq_iff_eq.mpr (beq_iff_eq.mp h).symm
    | float y => exact h
  | float x =>
    cases y with
    | int j => exact h
    | float y =>
      obtain ⟨hx, hy, hkey⟩ := Binary64.equals_iff_key.mp h
      exact Binary64.equals_iff_key.mpr ⟨hy, hx, hkey.symm⟩

theorem equals_self_iff : x.equals x = true ↔ x.IsNumber := by
  cases x with
  | int i => simp [equals, IsNumber]
  | float x => simp [equals, Binary64.equals, IsNumber]

/-- The word that a number equals, if there is one. -/
def toWord? : Numeric → Option Int64
  | .int i => some i
  | .float x => x.toWord?

/-- A number without a word is no integer. -/
theorem exists_float_of_toWord? (h : x.toWord? = none) : ∃ x', x = .float x' := by
  cases x with
  | int i => cases h
  | float x => exact ⟨x, rfl⟩

theorem toWord?_of_equals (h : x.equals y = true) : x.toWord? = y.toWord? := by
  cases x with
  | int i =>
    cases y with
    | int j => exact congrArg some (beq_iff_eq.mp h)
    | float y => exact (beq_iff_eq.mp h).symm
  | float x =>
    cases y with
    | int j => exact beq_iff_eq.mp h
    | float y => exact Binary64.toWord?_of_equals h

/-- Numbers that equal one word equal each other. -/
theorem equals_of_toWord? {i : Int64} (hx : x.toWord? = some i) (hy : y.toWord? = some i) :
    x.equals y = true := by
  cases x with
  | int j =>
    cases hx
    cases y with
    | int k => exact beq_iff_eq.mpr (Option.some_inj.mp hy).symm
    | float y => exact beq_iff_eq.mpr hy
  | float x =>
    cases y with
    | int k =>
      cases hy
      exact beq_iff_eq.mpr hx
    | float y =>
      obtain ⟨hx', -⟩ := Binary64.toWord?_eq_some_iff.mp hx
      obtain ⟨hy', -⟩ := Binary64.toWord?_eq_some_iff.mp hy
      exact (Binary64.equals_iff_exact (Binary64.isNaN_of_toWord? hx)
        (Binary64.isNaN_of_toWord? hy)).mpr (hx'.trans hy'.symm)

theorem equals_trans (hxy : x.equals y = true) (hyz : y.equals z = true) : x.equals z = true := by
  have hx := toWord?_of_equals hxy
  have hy := toWord?_of_equals hyz
  cases hz : z.toWord? with
  | some i => exact equals_of_toWord? (by rw [hx, hy, hz]) hz
  | none =>
    obtain ⟨x, rfl⟩ := exists_float_of_toWord? (hx.trans (hy.trans hz))
    obtain ⟨y, rfl⟩ := exists_float_of_toWord? (hy.trans hz)
    obtain ⟨z, rfl⟩ := exists_float_of_toWord? hz
    obtain ⟨hnan, -, hkey⟩ := Binary64.equals_iff_key.mp hxy
    obtain ⟨-, hnan', hkey'⟩ := Binary64.equals_iff_key.mp hyz
    exact Binary64.equals_iff_key.mpr ⟨hnan, hnan', hkey.trans hkey'⟩

theorem hashed_of_toWord? {i : Int64} (h : x.toWord? = some i) :
    x.hashed = [.kind 1, .word i] := by
  cases x with
  | int j =>
    cases h
    rfl
  | float x =>
    have hx : x.toWord? = some i := h
    rw [hashed, hx]

/-- Equal numbers are hashed alike. -/
theorem hashed_of_equals (h : x.equals y = true) : x.hashed = y.hashed := by
  have hword := toWord?_of_equals h
  cases hy : y.toWord? with
  | some i => rw [hashed_of_toWord? (hword.trans hy), hashed_of_toWord? hy]
  | none =>
    obtain ⟨x, rfl⟩ := exists_float_of_toWord? (hword.trans hy)
    obtain ⟨y, rfl⟩ := exists_float_of_toWord? hy
    obtain ⟨-, -, hkey⟩ := Binary64.equals_iff_key.mp h
    rcases Binary64.eq_or_isZero_of_key hkey with rfl | ⟨-, hzero⟩
    · rfl
    · exact nomatch hy.symm.trans (Binary64.toWord?_of_isZero hzero)

end Numeric

end TemplateEngine
