import Mathlib.Algebra.Order.Field.Power
import Mathlib.Algebra.Order.Field.Rat
import Mathlib.Data.Int.ConditionallyCompleteOrder
import Mathlib.Data.Int.SuccPred
import Mathlib.Data.Rat.Cast.Order
import Mathlib.Order.Compare
import Mathlib.Order.SuccPred.IntervalSucc
import Mathlib.Order.WithBot
import Mathlib.Tactic.FieldSimp
import Mathlib.Tactic.Linarith
import Mathlib.Tactic.Positivity
import Mathlib.Tactic.Ring
import TemplateEngine.Number.Binary64

/-!
# Exact values of floating point numbers

A number that is no NaN has an exact value: a rational number or an infinity.  `compare_exact` says
that the order of the keys is the order of the exact values, so that `order?` and `equals` compare
exactly.

The key of a number counts the numbers between zero and it.  `magnitudeValue` and `keyValue` are
the values that magnitudes and keys stand for, as if no key were that of an infinity: one step of
the key is one unit of the last place, and the step over a power of two joins two scales.
-/

namespace TemplateEngine

/-- The rational numbers between two infinities. -/
abbrev Extended := WithBot (WithTop ℚ)

namespace Binary64

/-! ### Exact values -/

/-- The rational number that a finite number is. -/
def toRat (x : Binary64) : ℚ :=
  let v := (x.numerator : ℚ) / x.denominator
  if x.isNegative then -v else v

/-- The exact value of a number that is no NaN. -/
def exact (x : Binary64) : Extended :=
  if x.isFinite then ((x.toRat : WithTop ℚ) : Extended) else if x.isNegative then ⊥ else ⊤

/-- The exact value of an integer. -/
def ofInteger (i : ℤ) : Extended := (((i : ℚ) : WithTop ℚ) : Extended)

theorem ofInteger_strictMono : StrictMono ofInteger := fun _ _ h =>
  WithBot.coe_lt_coe.mpr (WithTop.coe_lt_coe.mpr (Int.cast_lt.mpr h))

/-! ### Magnitudes -/

/-- The number that a magnitude stands for, as if none were infinite. -/
def magnitudeValue (m : Nat) : ℚ :=
  let e := m / hiddenBit - 1
  (m - e * hiddenBit : Nat) * 2 ^ ((e : ℤ) - 1074)

/-- A significand with its leading bit, or twice that, at the scale of `e`. -/
theorem magnitudeValue_add {e m : Nat} (hm : m ≤ 2 * hiddenBit) (h : hiddenBit ≤ m ∨ e = 0) :
    magnitudeValue (e * hiddenBit + m) = m * 2 ^ ((e : ℤ) - 1074) := by
  have hpos : 0 < hiddenBit := by decide
  have hdiv : (e * hiddenBit + m) / hiddenBit = e + m / hiddenBit := by
    rw [Nat.add_comm, Nat.add_mul_div_right _ _ hpos, Nat.add_comm]
  rcases Nat.lt_or_ge m hiddenBit with hlt | hge
  · obtain rfl : e = 0 := h.resolve_left (by omega)
    simp [magnitudeValue, Nat.div_eq_of_lt hlt]
  · rcases Nat.lt_or_eq_of_le hm with hlt | rfl
    · have hone : m / hiddenBit = 1 := Nat.div_eq_of_lt_le (by omega) (by omega)
      simp [magnitudeValue, hdiv, hone]
    · have htwo : 2 * hiddenBit / hiddenBit = 2 := Nat.mul_div_cancel _ hpos
      have he : e + 2 - 1 = e + 1 := rfl
      have hsub : e * hiddenBit + 2 * hiddenBit - (e + 1) * hiddenBit = hiddenBit := by
        rw [Nat.add_mul]
        omega
      have hscale : (2 : ℚ) ^ (((e + 1 : Nat) : ℤ) - 1074) = 2 ^ ((e : ℤ) - 1074) * 2 := by
        rw [← zpow_add_one₀ (by norm_num)]
        congr 1
        omega
      simp only [magnitudeValue, hdiv, htwo, he, hsub, hscale]
      push_cast
      ring

/-- A magnitude and the next one are a unit of the last place apart. -/
theorem magnitudeValue_lt_succ (m : Nat) : magnitudeValue m < magnitudeValue (m + 1) := by
  obtain ⟨e, f, rfl, hf, h⟩ : ∃ e f, m = e * hiddenBit + f ∧ f < 2 * hiddenBit ∧
      (hiddenBit ≤ f ∨ e = 0) := by
    have hpos : 0 < hiddenBit := by decide
    have hm := Nat.div_add_mod' m hiddenBit
    have hr := Nat.mod_lt m hpos
    cases hq : m / hiddenBit with
    | zero => exact ⟨0, m % hiddenBit, by rw [hq] at hm; omega, by omega, .inr rfl⟩
    | succ e =>
      refine ⟨e, hiddenBit + m % hiddenBit, ?_, by omega, .inl (by omega)⟩
      rw [hq, Nat.add_mul] at hm
      omega
  have hscale : (0 : ℚ) < 2 ^ ((e : ℤ) - 1074) := by positivity
  rw [Nat.add_assoc, magnitudeValue_add hf.le h, magnitudeValue_add hf (h.imp_left (by omega))]
  push_cast
  linarith

theorem numerator_div_denominator (x : Binary64) :
    (x.numerator : ℚ) / x.denominator = magnitudeValue x.magnitude := by
  have hscale : ∀ z : ℤ, ((2 : ℚ) ^ z.toNat) / 2 ^ (-z).toNat = 2 ^ z := by
    intro z
    rcases Int.le_total 0 z with hz | hz
    · obtain ⟨n, rfl⟩ := Int.eq_ofNat_of_zero_le hz
      simp
    · obtain ⟨n, rfl⟩ := Int.exists_eq_neg_ofNat hz
      simp [div_eq_mul_inv]
  have hsig : x.significand = x.magnitude - (x.magnitude / hiddenBit - 1) * hiddenBit := by
    unfold significand biased
    split
    · next h => simp [h]
    · next h =>
      obtain ⟨e, he⟩ := Nat.exists_eq_succ_of_ne_zero h
      have hm := Nat.div_add_mod' x.magnitude hiddenBit
      rw [he, Nat.succ_mul] at hm
      rw [he, Nat.succ_sub_one]
      omega
  have hexp : x.exponent = ((x.magnitude / hiddenBit - 1 : Nat) : ℤ) - 1074 := by
    unfold exponent biased
    omega
  simp only [numerator, denominator, magnitudeValue, ← hsig, ← hexp, Nat.pow_eq]
  push_cast
  rw [mul_div_assoc, hscale]

/-! ### Keys -/

/-- The number that a key stands for, as if none were infinite. -/
def keyValue (k : ℤ) : ℚ := k.sign * magnitudeValue k.natAbs

theorem magnitudeValue_zero : magnitudeValue 0 = 0 := by simp [magnitudeValue]

theorem keyValue_natCast (n : Nat) : keyValue n = magnitudeValue n := by
  cases n with
  | zero => simp [keyValue, magnitudeValue_zero]
  | succ n =>
    have hs : ((n + 1 : Nat) : ℤ).sign = 1 := Int.sign_natCast_add_one n
    rw [keyValue, hs, Int.natAbs_natCast, Int.cast_one, one_mul]

theorem keyValue_neg (k : ℤ) : keyValue (-k) = -keyValue k := by simp [keyValue]

/-- Numbers are ordered by their keys. -/
theorem keyValue_strictMono : StrictMono keyValue := by
  refine strictMono_int_of_lt_succ fun k => ?_
  rcases le_or_gt 0 k with hk | hk
  · obtain ⟨n, rfl⟩ := Int.eq_ofNat_of_zero_le hk
    have h := magnitudeValue_lt_succ n
    rw [← keyValue_natCast, ← keyValue_natCast] at h
    exact_mod_cast h
  · obtain ⟨n, rfl⟩ : ∃ n : Nat, k = -(n + 1 : Nat) := ⟨k.natAbs - 1, by omega⟩
    have h := magnitudeValue_lt_succ n
    have hs : -((n + 1 : Nat) : ℤ) + 1 = -(n : ℤ) := by omega
    rw [hs, keyValue_neg, keyValue_neg, keyValue_natCast, keyValue_natCast]
    linarith

theorem toRat_eq_keyValue (x : Binary64) : x.toRat = keyValue x.key := by
  unfold toRat key
  rw [numerator_div_denominator]
  split
  · rw [keyValue_neg, keyValue_natCast]
  · rw [keyValue_natCast]

/-- What a key stands for, up to the keys of the infinities. -/
def ofKey (k : ℤ) : Extended :=
  if k ≤ -infinityMagnitude then ⊥
  else if infinityMagnitude ≤ k then ⊤
  else ((keyValue k : WithTop ℚ) : Extended)

theorem abs_key_le {x : Binary64} (h : x.isNaN = false) : |x.key| ≤ infinityMagnitude := by
  simp only [isNaN, decide_eq_false_iff_not] at h
  unfold key
  split
  · rw [abs_neg, Nat.abs_cast]
    omega
  · rw [Nat.abs_cast]
    omega

theorem exact_eq_ofKey {x : Binary64} (h : x.isNaN = false) : x.exact = ofKey x.key := by
  have hle := abs_le.mp (abs_key_le h)
  have hpos : 0 < infinityMagnitude := by decide
  unfold exact ofKey
  cases hf : x.isFinite with
  | true =>
    have hlt : x.magnitude < infinityMagnitude := by simpa [isFinite] using hf
    have hkey : -(infinityMagnitude : ℤ) < x.key ∧ x.key < infinityMagnitude := by
      unfold key
      split <;> omega
    rw [if_pos rfl, if_neg (by omega), if_neg (by omega), toRat_eq_keyValue]
  | false =>
    have hge : infinityMagnitude ≤ x.magnitude := by simpa [isFinite] using hf
    rw [if_neg (by simp)]
    cases hn : x.isNegative with
    | true =>
      have hkey : x.key = -x.magnitude := by simp [key, hn]
      rw [if_pos rfl, if_pos (by omega)]
    | false =>
      have hkey : x.key = x.magnitude := by simp [key, hn]
      rw [if_neg (by simp), if_neg (by omega), if_pos (by omega)]

theorem ofKey_strictMonoOn :
    StrictMonoOn ofKey (Set.Icc (-infinityMagnitude) infinityMagnitude) := by
  intro j hj k hk hjk
  obtain ⟨hj₁, hj₂⟩ := hj
  obtain ⟨hk₁, hk₂⟩ := hk
  have hpos : 0 < infinityMagnitude := by decide
  unfold ofKey
  split
  · rw [if_neg (by omega)]
    split
    · exact WithBot.bot_lt_coe _
    · exact WithBot.bot_lt_coe _
  · rw [if_neg (by omega), if_neg (by omega)]
    split
    · exact WithBot.coe_lt_coe.mpr (WithTop.coe_lt_top _)
    · exact WithBot.coe_lt_coe.mpr (WithTop.coe_lt_coe.mpr (keyValue_strictMono hjk))

/-- The keys of two numbers are ordered as the numbers are. -/
theorem compare_exact {x y : Binary64} (hx : x.isNaN = false) (hy : y.isNaN = false) :
    compare x.exact y.exact = compare x.key y.key := by
  rw [exact_eq_ofKey hx, exact_eq_ofKey hy, ← cmp_eq_compare, ← cmp_eq_compare]
  exact ofKey_strictMonoOn.cmp_map_eq (abs_le.mp (abs_key_le hx)) (abs_le.mp (abs_key_le hy))

theorem order?_eq {x y : Binary64} (hx : x.isNaN = false) (hy : y.isNaN = false) :
    x.order? y = some (compare x.exact y.exact) := by
  simp [order?, hx, hy, compare_exact hx hy]

theorem equals_iff_exact {x y : Binary64} (hx : x.isNaN = false) (hy : y.isNaN = false) :
    x.equals y = true ↔ x.exact = y.exact := by
  calc x.equals y = true ↔ x.key = y.key := by simp [equals, hx, hy]
    _ ↔ compare x.exact y.exact = .eq := by rw [compare_exact hx hy, compare_eq_iff_eq]
    _ ↔ x.exact = y.exact := compare_eq_iff_eq

end Binary64

end TemplateEngine
