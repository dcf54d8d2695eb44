import TemplateEngine.Proofs.Number.Rounding
import TemplateEngine.Value.Order

/-!
# Comparing numbers

Equality and order of numbers against their exact values (`equals_and_order_exact`).  Both follow
the exact values, with one exception each: an integer never equals a floating point number from the
limit of conversion on, and an integer beyond the significand of a floating point number is ordered
as the number that it is rounded to.
-/

namespace TemplateEngine

namespace Numeric

/-- The exact value of a number that is no NaN. -/
def exact : Numeric → Extended
  | .int i => Binary64.ofInteger i.toInt
  | .float x => x.exact

/-- The number is not a NaN. -/
def IsNumber : Numeric → Prop
  | .int _ => True
  | .float x => x.isNaN = false

/-- Of an integer and a floating point number, the latter is converted to a word. -/
def Convertible : Numeric → Numeric → Prop
  | .int _, .float x | .float x, .int _ => x.fitsWord = true
  | _, _ => True

/-- The numbers are ordered in floating point and are one number there. -/
def Coincide : Numeric → Numeric → Prop
  | .int _, .int _ => False
  | x, y => x.toFloat.exact = y.toFloat.exact

instance : DecidableRel Coincide
  | .int _, .int _ => inferInstanceAs (Decidable False)
  | .int i, .float x => inferInstanceAs (Decidable ((Binary64.ofInt i.toInt).exact = x.exact))
  | .float x, .int i => inferInstanceAs (Decidable (x.exact = (Binary64.ofInt i.toInt).exact))
  | .float x, .float y => inferInstanceAs (Decidable (x.exact = y.exact))

theorem log2_toInt (i : Int64) : i.toInt.natAbs.log2 < 64 := by
  have h₁ := i.le_toInt
  have h₂ := i.toInt_lt
  rcases Nat.eq_zero_or_pos i.toInt.natAbs with h | h
  · rw [h]
    decide
  · exact (Nat.log2_lt h.ne').mpr (by omega)

theorem isNumber_ofInt (i : Int64) : (Binary64.ofInt i.toInt).isNaN = false :=
  (Binary64.encloses_ofInt (log2_toInt i)).1

theorem compare_toInt (i j : Int64) :
    compare i j = compare (Binary64.ofInteger i.toInt) (Binary64.ofInteger j.toInt) := by
  calc compare i j = compareOfLessAndEq i j := rfl
    _ = compareOfLessAndEq i.toInt j.toInt := by
      simp only [compareOfLessAndEq, Int64.lt_iff_toInt_lt, ← Int64.toInt_inj]
    _ = compare i.toInt j.toInt := rfl
    _ = compare (Binary64.ofInteger i.toInt) (Binary64.ofInteger j.toInt) := by
      rw [← cmp_eq_compare, ← cmp_eq_compare, Binary64.ofInteger_strictMono.cmp_map_eq]

/-- Equality is that of exact values, but for an integer and a floating point number that is too
large to be converted. -/
theorem equals_iff {x y : Numeric} (hx : x.IsNumber) (hy : y.IsNumber) :
    x.equals y = true ↔ x.exact = y.exact ∧ x.Convertible y := by
  cases x with
  | int i =>
    cases y with
    | int j =>
      have h : i = j ↔ Binary64.ofInteger i.toInt = Binary64.ofInteger j.toInt :=
        Int64.toInt_inj.symm.trans Binary64.ofInteger_strictMono.injective.eq_iff.symm
      simp [equals, exact, Convertible, h]
    | float y =>
      rw [@eq_comm _ (Numeric.int i).exact]
      simp [equals, intEqualsFloat, Binary64.toWord?_eq_some_iff, exact, Convertible]
  | float x =>
    cases y with
    | int j => simp [equals, intEqualsFloat, Binary64.toWord?_eq_some_iff, exact, Convertible]
    | float y => simp [equals, Binary64.equals_iff_exact hx hy, exact, Convertible]

/-- The order is that of exact values, but for numbers that are one in floating point. -/
theorem order?_eq_some {x y : Numeric} (hx : x.IsNumber) (hy : y.IsNumber) :
    x.order? y = some (if x.Coincide y then .eq else compare x.exact y.exact) := by
  cases x with
  | int i =>
    cases y with
    | int j =>
      rw [if_neg (show ¬ (Numeric.int i).Coincide (.int j) from id)]
      exact congrArg some (compare_toInt i j)
    | float y =>
      calc order? (.int i) (.float y) = (Binary64.ofInt i.toInt).order? y := rfl
        _ = some (compare (Binary64.ofInt i.toInt).exact y.exact) :=
          Binary64.order?_eq (isNumber_ofInt i) hy
        _ = some (if (Binary64.ofInt i.toInt).exact = y.exact then .eq
              else compare (Binary64.ofInteger i.toInt) y.exact) :=
          congrArg some (Binary64.compare_ofInt (log2_toInt i) hy)
  | float x =>
    cases y with
    | int j =>
      calc order? (.float x) (.int j) = x.order? (Binary64.ofInt j.toInt) := rfl
        _ = some (compare x.exact (Binary64.ofInt j.toInt).exact) :=
          Binary64.order?_eq hx (isNumber_ofInt j)
        _ = some (if x.exact = (Binary64.ofInt j.toInt).exact then .eq
              else compare x.exact (Binary64.ofInteger j.toInt)) := by
          have h := Binary64.compare_ofInt (log2_toInt j) hx
          rw [← cmp_eq_compare, ← cmp_eq_compare] at h ⊢
          rw [← cmp_swap, h, apply_ite Ordering.swap, cmp_swap]
          exact congrArg some (if_congr eq_comm rfl rfl)
    | float y =>
      calc order? (.float x) (.float y) = some (compare x.exact y.exact) := Binary64.order?_eq hx hy
        _ = some (if x.exact = y.exact then .eq else compare x.exact y.exact) := by
          split
          · next h => rw [compare_eq_iff_eq.mpr h]
          · rfl

end Numeric

namespace Value

variable {a b : Value} {x y : Numeric}

theorem equals_of_number? (ha : a.number? = some x) (hb : b.number? = some y) :
    a.equals b = x.equals y := by
  cases a <;> cases ha <;> cases b <;> cases hb <;> simp [Value.equals, equalsNumber, number?]

theorem order?_of_number? (ha : a.number? = some x) (hb : b.number? = some y) (op : String) :
    a.order? op b = .ok (x.order? y) := by
  cases a <;> cases ha <;> cases b <;> cases hb <;> simp [Value.order?, number?]

/-- Two numbers are equal when their exact values are and a floating point number beside an integer
is below the limit of conversion; they are ordered as their exact values are unless one is an
integer that rounds to the other. -/
theorem equals_and_order_exact (ha : a.number? = some x) (hb : b.number? = some y)
    (hx : x.IsNumber) (hy : y.IsNumber) (op : String) :
    (a.equals b = true ↔ x.exact = y.exact ∧ x.Convertible y) ∧
      a.order? op b =
        .ok (some (if x.Coincide y then .eq else compare x.exact y.exact)) := by
  constructor
  · rw [equals_of_number? ha hb]
    exact Numeric.equals_iff hx hy
  · rw [order?_of_number? ha hb, Numeric.order?_eq_some hx hy]

/-- Two and a half and three: exact values decide. -/
theorem equals_and_order_half :
    ((Value.int 3).equals (.float ⟨0x4004000000000000⟩) = true ↔
      Numeric.exact (.int 3) = Numeric.exact (.float ⟨0x4004000000000000⟩) ∧
        Numeric.Convertible (.int 3) (.float ⟨0x4004000000000000⟩)) ∧
      (Value.int 3).order? "<" (.float ⟨0x4004000000000000⟩) =
        .ok (some (if Numeric.Coincide (.int 3) (.float ⟨0x4004000000000000⟩) then .eq
          else compare (Numeric.exact (.int 3)) (Numeric.exact (.float ⟨0x4004000000000000⟩)))) :=
  equals_and_order_exact (x := .int 3) (y := .float ⟨0x4004000000000000⟩) rfl rfl trivial
    (show Binary64.isNaN ⟨0x4004000000000000⟩ = false by decide) "<"

/-- From the limit of conversion on an integer does not equal its own value in floating point, and
above `2 ^ 53` it is ordered like the number it rounds to. -/
theorem not_equals_and_order_exact :
    ((Value.int 9200000000000000000).equals (.float ⟨0x43dfeb3dd0676600⟩) = false ∧
      Numeric.exact (.int 9200000000000000000) = Numeric.exact (.float ⟨0x43dfeb3dd0676600⟩)) ∧
    ((Value.int 9007199254740993).order? "<" (.float ⟨0x4340000000000000⟩) = .ok (some .eq) ∧
      (Value.int 9007199254740993).equals (.float ⟨0x4340000000000000⟩) = false ∧
      compare (Numeric.exact (.int 9007199254740993)) (Numeric.exact (.float ⟨0x4340000000000000⟩))
        = .gt) := by
  refine ⟨⟨by rw [equals_of_number? rfl rfl]; decide, ?_⟩,
    by rw [order?_of_number? rfl rfl]; decide, by rw [equals_of_number? rfl rfl]; decide, ?_⟩
  · exact (Binary64.exact_of_isIntegral (x := ⟨0x43dfeb3dd0676600⟩) (by decide)).symm
  · have hword : Numeric.exact (.float ⟨0x4340000000000000⟩) = Binary64.ofInteger 9007199254740992 :=
      Binary64.exact_of_isIntegral (x := ⟨0x4340000000000000⟩) (by decide)
    rw [hword, compare_gt_iff_gt]
    exact Binary64.ofInteger_strictMono (by decide)

end Value

end TemplateEngine
