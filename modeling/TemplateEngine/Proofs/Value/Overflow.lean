import Mathlib.Algebra.Order.Ring.Int
import Mathlib.Algebra.Ring.Int.Parity
import Mathlib.Tactic.Linarith
import TemplateEngine.Function.Builtin

/-!
# Overflow

The operators on integers are exact: the result is the integer of the mathematical operation when
that fits a word, and the failure with overflow when it does not (`IsExact`).  Three kinds of
operands are excepted, whose result fits a word and is reported all the same
(`Value.arithmetic_exact`): the remainder of the least word by minus one, minus one shifted by 63,
and a power of zero, one or minus one with an exponent from `2 ^ 32` on.

A shift to the left is the exact product with a power of two.  On words that is to shift to the left
and back, and to compare (`Value.shiftLeft_words`).
-/

namespace TemplateEngine

/-- The integer is that of a word. -/
def FitsWord (i : Int) : Prop := -2 ^ 63 ≤ i ∧ i < 2 ^ 63

instance (i : Int) : Decidable (FitsWord i) := inferInstanceAs (Decidable (_ ∧ _))

/-- The result is the integer `i` when that fits a word, and the failure with overflow when not. -/
def IsExact (r : Except Error Value) (i : Int) : Prop :=
  (FitsWord i → ∃ w : Int64, w.toInt = i ∧ r = .ok (.int w)) ∧
    (¬ FitsWord i → r = .error (.render .overflow none))

theorem fit?_of_fitsWord {i : Int} (h : FitsWord i) :
    ∃ w : Int64, w.toInt = i ∧ Number.fit? i = some w := by
  obtain ⟨hlow, hhigh⟩ := h
  refine ⟨Int64.ofInt i, Int64.toInt_ofInt_of_le (by omega) (by omega), ?_⟩
  rw [Number.fit?, if_pos (by omega)]

theorem fit?_of_not_fitsWord {i : Int} (h : ¬ FitsWord i) : Number.fit? i = none := by
  unfold FitsWord at h
  rw [Number.fit?, if_neg (by omega)]

theorem isExact_ofExact (i : Int) : IsExact (Value.ofExact i) i := by
  constructor
  · intro h
    obtain ⟨w, hw, hfit⟩ := fit?_of_fitsWord h
    exact ⟨w, hw, by rw [Value.ofExact, hfit]⟩
  · intro h
    rw [Value.ofExact, fit?_of_not_fitsWord h]
    rfl

/-- An integer that fits no word is reported. -/
theorem isExact_overflow {i : Int} (h : ¬ FitsWord i) : IsExact (fail .overflow) i :=
  ⟨fun hi => absurd hi h, fun _ => rfl⟩

/-! ### Shifted words -/

namespace Number

/-- A word shifted to the left within 64 bits; none if shifting it back gives another word. -/
def shiftLeft? (x y : Int64) : Option Int64 :=
  if x <<< y >>> y = x then some (x <<< y) else none

variable {x y : Int64}

theorem bmod_of_fitsWord {i : Int} (h : FitsWord i) : i.bmod (2 ^ 64) = i := by
  obtain ⟨hlow, hhigh⟩ := h
  exact Int.bmod_eq_of_le (by omega) (by omega)

/-- Words are shifted by the count modulo 64, which is the count itself below 64. -/
theorem toNat_smod (hy : 0 ≤ y) (hlt : y < 64) :
    (y.toBitVec.smod 64).toNat = y.toInt.toNat := by
  have hzero : (0 : Int64).toInt = 0 := rfl
  have hword : (64 : Int64).toInt = 64 := rfl
  rw [Int64.le_iff_toInt_le, hzero] at hy
  rw [Int64.lt_iff_toInt_lt, hword] at hlt
  have hcount : (y.toBitVec.smod 64).toInt = y.toInt := by
    rw [BitVec.toInt_smod, Int64.toInt_toBitVec]
    exact Int.fmod_eq_of_lt hy hlt
  rw [← hcount] at hy ⊢
  rw [BitVec.toInt_eq_toNat_cond] at hy ⊢
  split at hy <;> omega

theorem toInt_shiftLeft (hy : 0 ≤ y) (hlt : y < 64) :
    (x <<< y).toInt = (x.toInt * 2 ^ y.toInt.toNat).bmod (2 ^ 64) := by
  rw [← Int64.toInt_toBitVec, Int64.toBitVec_shiftLeft, BitVec.shiftLeft_eq', toNat_smod hy hlt,
    BitVec.toInt_shiftLeft, Nat.shiftLeft_eq, ← Int64.toInt_toBitVec x, BitVec.toInt_eq_toNat_bmod,
    Int.bmod_mul_bmod]
  push_cast
  rfl

theorem toInt_shiftRight (hy : 0 ≤ y) (hlt : y < 64) :
    (x >>> y).toInt = x.toInt / 2 ^ y.toInt.toNat := by
  rw [← Int64.toInt_toBitVec, Int64.toBitVec_shiftRight, BitVec.sshiftRight', toNat_smod hy hlt,
    BitVec.toInt_sshiftRight, Int64.toInt_toBitVec, Int.shiftRight_eq_div_pow]
  push_cast
  rfl

/-- Shifting back gives another word exactly if bits were lost. -/
theorem shift_back_iff (hy : 0 ≤ y) (hlt : y < 64) :
    x <<< y >>> y = x ↔ FitsWord (x.toInt * 2 ^ y.toInt.toNat) := by
  have hpow : (0 : Int) < 2 ^ y.toInt.toNat := by positivity
  rw [← Int64.toInt_inj, toInt_shiftRight hy hlt]
  constructor
  · intro h
    -- the shifted word is a multiple of the power, so it is the product and not only congruent
    have hdvd : (2 : Int) ^ y.toInt.toNat ∣ (x <<< y).toInt := by
      have hcount : y.toInt.toNat ≤ 64 := by
        have hle := Int64.lt_iff_toInt_lt.mp hlt
        have hword : (64 : Int64).toInt = 64 := rfl
        omega
      have hmod : (2 : Int) ^ y.toInt.toNat ∣ 2 ^ 64 := pow_dvd_pow 2 hcount
      have hcongr := Int.bmod_emod (x := x.toInt * 2 ^ y.toInt.toNat) (m := 2 ^ 64)
      rw [← toInt_shiftLeft hy hlt, Nat.cast_pow, Nat.cast_ofNat] at hcongr
      rw [Int.dvd_iff_emod_eq_zero, ← Int.emod_emod_of_dvd _ hmod, hcongr,
        Int.emod_emod_of_dvd _ hmod, Int.mul_emod_left]
    rw [← h, Int.ediv_mul_cancel hdvd]
    exact ⟨(x <<< y).le_toInt, (x <<< y).toInt_lt⟩
  · intro h
    rw [toInt_shiftLeft hy hlt, bmod_of_fitsWord h, Int.mul_ediv_cancel _ hpow.ne']

/-- A word is shifted to the left exactly if the product with the power of two fits a word. -/
theorem shiftLeft?_eq (hy : 0 ≤ y) (hlt : y < 64) :
    shiftLeft? x y = fit? (x.toInt * 2 ^ y.toInt.toNat) := by
  rw [shiftLeft?]
  simp only [shift_back_iff hy hlt]
  split
  · next h =>
    obtain ⟨w, hw, hfit⟩ := fit?_of_fitsWord h
    have hshift : x <<< y = w := by
      rw [← Int64.toInt_inj, toInt_shiftLeft hy hlt, bmod_of_fitsWord h, hw]
    rw [hfit, hshift]
  · next h => rw [fit?_of_not_fitsWord h]

end Number

namespace Value

variable {a b : Value} {x y : Int64}

theorem number?_of_asInt? (h : a.asInt? = some x) : a.number? = some (.int x) := by
  cases a <;> cases h <;> rfl

theorem numbers?_of_asInt? (ha : a.asInt? = some x) (hb : b.asInt? = some y) :
    numbers? a b = some (.int x, .int y) := by
  rw [numbers?, number?_of_asInt? ha, number?_of_asInt? hb]

/-! ### Sums, products and quotients -/

theorem isExact_add (ha : a.asInt? = some x) (hb : b.asInt? = some y) :
    IsExact (a.add b) (x.toInt + y.toInt) := by
  simp only [add, numbers?_of_asInt? ha hb]
  exact isExact_ofExact _

theorem isExact_sub (ha : a.asInt? = some x) (hb : b.asInt? = some y) :
    IsExact (a.sub b) (x.toInt - y.toInt) := by
  simp only [sub, numbers?_of_asInt? ha hb]
  exact isExact_ofExact _

theorem isExact_mul (ha : a.asInt? = some x) (hb : b.asInt? = some y) :
    IsExact (a.mul b) (x.toInt * y.toInt) := by
  simp only [mul, numbers?_of_asInt? ha hb]
  exact isExact_ofExact _

theorem isExact_neg (ha : a.asInt? = some x) : IsExact a.neg (-x.toInt) := by
  rw [neg, number?_of_asInt? ha]
  exact isExact_ofExact _

theorem isExact_abs (ha : a.asInt? = some x) :
    IsExact (Builtin.abs.apply [a]) x.toInt.natAbs := by
  have habs : Builtin.absOf a = ofExact x.toInt.natAbs := by
    cases a <;> cases ha <;> rfl
  have happly : Builtin.abs.apply [a] = Builtin.absOf a := rfl
  rw [happly, habs]
  exact isExact_ofExact _

theorem isExact_floorDiv (ha : a.asInt? = some x) (hb : b.asInt? = some y) (hy : y ≠ 0) :
    IsExact (a.floorDiv b) (x.toInt.fdiv y.toInt) := by
  rw [floorDiv, numbers?_of_asInt? ha hb]
  simp only [hy, if_false]
  exact isExact_ofExact _

theorem isExact_mod (ha : a.asInt? = some x) (hb : b.asInt? = some y) (hy : y ≠ 0)
    (hxy : ¬ (x = Int64.minValue ∧ y = -1)) : IsExact (a.mod b) (x.toInt.fmod y.toInt) := by
  rw [mod, numbers?_of_asInt? ha hb]
  simp only [hy, hxy, if_false]
  exact isExact_ofExact _

theorem mod_eq_overflow (ha : a.asInt? = some x) (hb : b.asInt? = some y)
    (h : x = Int64.minValue ∧ y = -1) : a.mod b = .error (.render .overflow none) := by
  obtain ⟨rfl, rfl⟩ := h
  rw [mod, numbers?_of_asInt? ha hb]
  rfl

/-! ### Powers -/

theorem not_fitsWord_pow {i : Int} {n : Nat} (hi : 2 ≤ i.natAbs) (hn : 64 ≤ n) :
    ¬ FitsWord (i ^ n) := by
  rintro ⟨hlow, hhigh⟩
  have hlarge : 2 ^ 64 ≤ (i ^ n).natAbs := by
    rw [Int.natAbs_pow]
    calc 2 ^ 64 ≤ 2 ^ n := Nat.pow_le_pow_right (by decide) hn
      _ ≤ i.natAbs ^ n := Nat.pow_le_pow_left hi n
  omega

/-- The cases of a power lead to the word of the exact power, if there is one. -/
theorem power?_eq (i : Int) (n : Nat) : power? i n = Number.fit? (i ^ n) := by
  unfold power?
  by_cases hi : i.natAbs ≤ 1
  · rw [if_pos hi]
    congr 1
    rcases Nat.eq_zero_or_pos n with rfl | hn
    · simp
    · obtain rfl | rfl | rfl : i = 0 ∨ i = 1 ∨ i = -1 := by omega
      · simp [hn.ne']
      · simp
      · rcases Nat.mod_two_eq_zero_or_one n with h | h
        · simp [hn.ne', h, (Nat.even_iff.mpr h).neg_one_pow]
        · simp [hn.ne', h, (Nat.odd_iff.mpr h).neg_one_pow]
  · rw [if_neg hi]
    by_cases hn : n < 64
    · rw [if_pos hn, Int.pow_eq]
    · rw [if_neg hn, fit?_of_not_fitsWord (not_fitsWord_pow (by omega) (by omega))]

theorem isExact_pow (ha : a.asInt? = some x) (hb : b.asInt? = some y) (hy : 0 ≤ y)
    (hxy : ¬ (x.toInt.natAbs ≤ 1 ∧ 2 ^ 32 ≤ y.toInt)) :
    IsExact (a.pow b) (x.toInt ^ y.toInt.toNat) := by
  simp only [pow, numbers?_of_asInt? ha hb, hy, if_true]
  by_cases hlarge : 4294967295 < y.toInt
  · -- beyond the limit of exponents a base that is not excepted overflows anyway
    rw [if_pos hlarge]
    exact isExact_overflow (not_fitsWord_pow (by omega) (by omega))
  · rw [if_neg hlarge, power?_eq]
    exact isExact_ofExact _

theorem pow_eq_overflow (ha : a.asInt? = some x) (hb : b.asInt? = some y)
    (hy : 2 ^ 32 ≤ y.toInt) : a.pow b = .error (.render .overflow none) := by
  have hzero : (0 : Int64).toInt = 0 := rfl
  have hpos : 0 ≤ y := Int64.le_iff_toInt_le.mpr (by omega)
  have hlarge : 4294967295 < y.toInt := by omega
  simp only [pow, numbers?_of_asInt? ha hb, hpos, hlarge, if_true]
  rfl

/-! ### Shifts -/

/-- From 63 places on nothing but zero is shifted within a word, and minus one by 63 places. -/
theorem not_fitsWord_shift {i : Int} {n : Nat} (hi : i ≠ 0) (hn : 63 ≤ n)
    (hmin : ¬ (i = -1 ∧ n = 63)) : ¬ FitsWord (i * 2 ^ n) := by
  have hpow : (2 : Int) ^ 63 ≤ 2 ^ n := pow_le_pow_right₀ (by decide) hn
  rintro ⟨hlow, hhigh⟩
  rcases Int.lt_or_gt_of_ne hi with hneg | hpos
  · by_cases hone : i = -1
    · have hnext : (2 : Int) ^ 64 ≤ 2 ^ n := pow_le_pow_right₀ (by decide) (by omega)
      rw [hone] at hlow
      omega
    · have htwice : i * 2 ^ n ≤ -2 * 2 ^ n := Int.mul_le_mul_of_nonneg_right (by omega) (by omega)
      omega
  · have honce : 1 * 2 ^ n ≤ i * 2 ^ n := Int.mul_le_mul_of_nonneg_right (by omega) (by omega)
    omega

theorem isExact_shiftLeft (ha : a.asInt? = some x) (hb : b.asInt? = some y) (hy : 0 ≤ y)
    (hxy : ¬ (x = -1 ∧ y = 63)) :
    IsExact (a.shiftLeft b) (x.toInt * 2 ^ y.toInt.toNat) := by
  have hneg : ¬ y < 0 := Int64.not_lt.mpr hy
  simp only [shiftLeft, ha, hb, hneg, if_false]
  by_cases hx : x = 0
  · subst hx
    have hzero : IsExact (.ok (.int 0)) 0 := isExact_ofExact 0
    simpa using hzero
  · simp only [hx, if_false]
    by_cases hlarge : 63 ≤ y
    · -- zero is dealt with before, so what is shifted this far fits no word
      rw [if_pos hlarge]
      have hword : (63 : Int64).toInt = 63 := rfl
      have hcount : 63 ≤ y.toInt := Int64.le_iff_toInt_le.mp hlarge
      refine isExact_overflow (not_fitsWord_shift ?_ (by omega) ?_)
      · exact fun h => hx (Int64.toInt_inj.mp h)
      · rintro ⟨hx', hy'⟩
        exact hxy ⟨Int64.toInt_inj.mp hx', Int64.toInt_inj.mp (by omega)⟩
    · rw [if_neg hlarge]
      exact isExact_ofExact _

/-- A shift to the left is one of words, which is shifted back to see whether bits were lost. -/
theorem shiftLeft_words (ha : a.asInt? = some x) (hb : b.asInt? = some y) :
    a.shiftLeft b =
      if y < 0 then fail .negativeShift
      else if x = 0 then .ok (.int 0)
      else if 63 ≤ y then fail .overflow
      else
        match Number.shiftLeft? x y with
        | some w => .ok (.int w)
        | none => fail .overflow := by
  simp only [shiftLeft, ha, hb]
  split
  · rfl
  · next hneg =>
    split
    · rfl
    · split
      · rfl
      · next hlarge =>
        have hlt : y < 64 := Int64.lt_trans (Int64.not_le.mp hlarge) (by decide)
        rw [Number.shiftLeft?_eq (Int64.not_lt.mp hneg) hlt]
        rfl

theorem shiftLeft_eq_overflow (ha : a.asInt? = some x) (hb : b.asInt? = some y)
    (h : x = -1 ∧ y = 63) : a.shiftLeft b = .error (.render .overflow none) := by
  obtain ⟨rfl, rfl⟩ := h
  rw [shiftLeft, ha, hb]
  rfl

/-! ### All operators -/

/-- The operators on two values that stand for the integers `x` and `y`.  Where an operator has
operands that are excepted, it reports an overflow although the exact result fits a word. -/
structure ExactArithmetic (a b : Value) (x y : Int64) : Prop where
  add : IsExact (a.add b) (x.toInt + y.toInt)
  sub : IsExact (a.sub b) (x.toInt - y.toInt)
  mul : IsExact (a.mul b) (x.toInt * y.toInt)
  neg : IsExact a.neg (-x.toInt)
  abs : IsExact (Builtin.abs.apply [a]) x.toInt.natAbs
  floorDiv (hy : y ≠ 0) : IsExact (a.floorDiv b) (x.toInt.fdiv y.toInt)
  mod (hy : y ≠ 0) :
    if x = Int64.minValue ∧ y = -1 then a.mod b = .error (.render .overflow none)
    else IsExact (a.mod b) (x.toInt.fmod y.toInt)
  pow (hy : 0 ≤ y) :
    if x.toInt.natAbs ≤ 1 ∧ 2 ^ 32 ≤ y.toInt then a.pow b = .error (.render .overflow none)
    else IsExact (a.pow b) (x.toInt ^ y.toInt.toNat)
  shiftLeft (hy : 0 ≤ y) :
    if x = -1 ∧ y = 63 then a.shiftLeft b = .error (.render .overflow none)
    else IsExact (a.shiftLeft b) (x.toInt * 2 ^ y.toInt.toNat)

/-- **Integer arithmetic is exact and reports an overflow where it happens**; the three kinds of
excepted operands are reported too. -/
theorem arithmetic_exact (ha : a.asInt? = some x) (hb : b.asInt? = some y) :
    ExactArithmetic a b x y ∧ (Error.render .overflow none).message = "integer overflow" := by
  refine ⟨⟨isExact_add ha hb, isExact_sub ha hb, isExact_mul ha hb, isExact_neg ha,
    isExact_abs ha, isExact_floorDiv ha hb, fun hy => ?mod, fun hy => ?pow, fun hy => ?shift⟩, rfl⟩
  case mod =>
    split
    · next h => exact mod_eq_overflow ha hb h
    · next h => exact isExact_mod ha hb hy h
  case pow =>
    split
    · next h => exact pow_eq_overflow ha hb h.2
    · next h => exact isExact_pow ha hb hy h
  case shift =>
    split
    · next h => exact shiftLeft_eq_overflow ha hb h
    · next h => exact isExact_shiftLeft ha hb hy h

/-- The least word and true: the difference and the opposite overflow, the product does not. -/
theorem arithmetic_exact_least :
    (Value.int Int64.minValue).asInt? = some Int64.minValue ∧ (Value.bool true).asInt? = some 1 ∧
      ExactArithmetic (.int Int64.minValue) (.bool true) Int64.minValue 1 ∧
      (Error.render .overflow none).message = "integer overflow" :=
  ⟨rfl, rfl, arithmetic_exact rfl rfl⟩

/-- The excepted operands: minus one shifted by 63 is the least word, the least word leaves no
remainder by minus one, and every power of one is one. -/
theorem not_arithmetic_exact :
    ¬ IsExact ((Value.int (-1)).shiftLeft (.int 63)) (-1 * 2 ^ 63) ∧
      ¬ IsExact ((Value.int Int64.minValue).mod (.int (-1))) ((-2 ^ 63 : Int).fmod (-1)) ∧
      ¬ IsExact ((Value.int 1).pow (.int 4294967296)) (1 ^ 4294967296) := by
  refine ⟨fun h => ?_, fun h => ?_, fun h => ?_⟩
  · obtain ⟨w, -, hw⟩ := h.1 (by decide)
    rw [shiftLeft_eq_overflow (x := -1) (y := 63) rfl rfl ⟨rfl, rfl⟩] at hw
    cases hw
  · obtain ⟨w, -, hw⟩ := h.1 (by decide)
    rw [mod_eq_overflow (x := Int64.minValue) (y := -1) rfl rfl ⟨rfl, rfl⟩] at hw
    cases hw
  · rw [one_pow] at h
    obtain ⟨w, -, hw⟩ := h.1 (by decide)
    rw [pow_eq_overflow (x := 1) (y := 4294967296) rfl rfl (by decide)] at hw
    cases hw

end Value

end TemplateEngine
