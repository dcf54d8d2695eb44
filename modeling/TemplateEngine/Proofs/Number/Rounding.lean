import Mathlib.Data.Nat.Cast.Field
import TemplateEngine.Proofs.Number.Exact

/-!
# Rounding integers and converting to words

An integer of no more bits than a word is rounded to a number whose neighbours enclose it
(`encloses_ofInt`).  So rounding it leaves its order to every floating point number as it was, but
for the one number that it is rounded to (`compare_ofInt`), and of two integers the greater one is
rounded to no less (`totalKey_ofInt_le`).  Back from floating point, `toWord?_eq_some_iff` says
which word a number is converted to: the one it equals exactly, if it is below the limit of
conversion.
-/

namespace TemplateEngine.Binary64

/-! ### Encoding -/

theorem isNegative_ofMagnitude {m : Nat} (s : Bool) (h : m < signBit) :
    (ofMagnitude s m).isNegative = s := by
  cases s <;> simp [isNegative, ofMagnitude, signBit] at * <;> omega

theorem magnitude_ofMagnitude {m : Nat} (s : Bool) (h : m < signBit) :
    (ofMagnitude s m).magnitude = m := by
  cases s <;> simp [magnitude, ofMagnitude, signBit] at * <;> omega

theorem divNearest_bounds (num : Nat) {den : Nat} (h : 0 < den) :
    2 * num ≤ (2 * divNearest num den + 1) * den ∧
      2 * divNearest num den * den ≤ 2 * num + den := by
  have hnum := Nat.div_add_mod' num den
  have hr := Nat.mod_lt num h
  have hup : (2 * (num / den + 1) + 1) * den = 2 * (num / den * den) + 3 * den := by ring
  have hdown : (2 * (num / den) + 1) * den = 2 * (num / den * den) + den := by ring
  have hup' : 2 * (num / den + 1) * den = 2 * (num / den * den) + 2 * den := by ring
  have hdown' : 2 * (num / den) * den = 2 * (num / den * den) := by ring
  unfold divNearest
  simp only [Bool.or_eq_true, decide_eq_true_eq, Bool.and_eq_true, beq_iff_eq]
  split
  · omega
  · omega

theorem leadingBit_one {n : Nat} (h : n ≠ 0) : leadingBit n 1 = n.log2 := by
  have hle : 2 ^ n.log2 ≤ n := Nat.log2_self_le h
  have hone : Nat.log2 1 = 0 := by decide
  simp [leadingBit, hone, hle]

/-- A rounded quotient between two bounds is between them. -/
theorem divNearest_mem {num den lo hi : Nat} (hlo : lo * den ≤ num) (hhi : num < hi * den) :
    lo ≤ divNearest num den ∧ divNearest num den ≤ hi := by
  have hden : 0 < den := Nat.pos_of_ne_zero (by rintro rfl; simp at hhi)
  have h₁ : lo ≤ num / den := (Nat.le_div_iff_mul_le hden).mpr hlo
  have h₂ : num / den < hi := (Nat.div_lt_iff_lt_mul hden).mpr hhi
  unfold divNearest
  dsimp only
  split <;> omega

theorem nearest_one {n : Nat} (h : n ≠ 0) (hn : n.log2 < 64) :
    nearest 53 (-1074) n 1 =
      (divNearest (n * 2 ^ (52 - n.log2)) (2 ^ (n.log2 - 52)), (n.log2 : ℤ) - 52) := by
  have he : max (leadingBit n 1 + 1 - (53 : Nat)) (-1074) = (n.log2 : ℤ) - 52 := by
    rw [leadingBit_one h]
    omega
  have h₁ : (-((n.log2 : ℤ) - 52)).toNat = 52 - n.log2 := by omega
  have h₂ : ((n.log2 : ℤ) - 52).toNat = n.log2 - 52 := by omega
  simp only [nearest, he, h₁, h₂, Nat.pow_eq, one_mul]

/-! ### Neighbours of a rounded integer -/

/-- The magnitude `m` is not that of an infinity, and its neighbours enclose `n`. -/
structure Neighbours (m n : Nat) : Prop where
  pos : 0 < m
  finite : m + 1 < infinityMagnitude
  below : magnitudeValue (m - 1) < n
  above : n < magnitudeValue (m + 1)

section
variable {e n s d a : Nat}

/-- A magnitude of the exponent `e` is a multiple of `2 ^ d / 2 ^ s`. -/
theorem magnitudeValue_mul_two_pow (he : e + s = 1022 + 52 + d) (h₁ : hiddenBit ≤ a)
    (h₂ : a ≤ 2 * hiddenBit) : magnitudeValue (e * hiddenBit + a) * 2 ^ s = a * 2 ^ d := by
  have hexp : (e : ℤ) - 1074 + s = d := by omega
  rw [magnitudeValue_add h₂ (.inl h₁), mul_assoc, ← zpow_natCast (2 : ℚ) s,
    ← zpow_natCast (2 : ℚ) d, ← zpow_add₀ (by norm_num), hexp]

/-- Such a magnitude and a whole number are compared in whole numbers. -/
theorem magnitudeValue_lt_iff (he : e + s = 1022 + 52 + d) (h₁ : hiddenBit ≤ a)
    (h₂ : a ≤ 2 * hiddenBit) : magnitudeValue (e * hiddenBit + a) < n ↔ a * 2 ^ d < n * 2 ^ s := by
  have hs : (0 : ℚ) < 2 ^ s := by positivity
  rw [← mul_lt_mul_iff_left₀ hs, magnitudeValue_mul_two_pow he h₁ h₂]
  norm_cast

theorem lt_magnitudeValue_iff (he : e + s = 1022 + 52 + d) (h₁ : hiddenBit ≤ a)
    (h₂ : a ≤ 2 * hiddenBit) : n < magnitudeValue (e * hiddenBit + a) ↔ n * 2 ^ s < a * 2 ^ d := by
  have hs : (0 : ℚ) < 2 ^ s := by positivity
  rw [← mul_lt_mul_iff_left₀ hs, magnitudeValue_mul_two_pow he h₁ h₂]
  norm_cast

/-- A fraction `n · 2 ^ s / 2 ^ d` with the bits of a significand, rounded, and the scale at which
it stands for `n`. -/
theorem neighbours_divNearest (he : e + s = 1022 + 52 + d) (hsize : e < 1086)
    (hlow : hiddenBit * 2 ^ d ≤ n * 2 ^ s) (hhigh : n * 2 ^ s < 2 * hiddenBit * 2 ^ d) :
    Neighbours (e * hiddenBit + divNearest (n * 2 ^ s) (2 ^ d)) n := by
  have hpos : 0 < 2 ^ d := Nat.two_pow_pos d
  obtain ⟨hm₁, hm₂⟩ := divNearest_mem hlow hhigh
  obtain ⟨hup, hdown⟩ := divNearest_bounds (n * 2 ^ s) hpos
  generalize divNearest (n * 2 ^ s) (2 ^ d) = m at *
  have hfinite : e * hiddenBit ≤ 1085 * hiddenBit := Nat.mul_le_mul_right _ (by omega)
  have hhidden : 0 < hiddenBit := by decide
  refine ⟨by omega, ?_, ?_, ?_⟩
  · unfold infinityMagnitude
    unfold hiddenBit at *
    omega
  -- At either end of the exponent the neighbour has another scale, but the end itself will do.
  · rcases Nat.lt_or_eq_of_le hm₁ with hlt | rfl
    · obtain ⟨k, rfl⟩ : ∃ k, m = k + 1 := ⟨m - 1, by omega⟩
      rw [← Nat.add_assoc, Nat.add_sub_cancel,
        magnitudeValue_lt_iff he (by omega) (by omega)]
      linarith
    · calc magnitudeValue (e * hiddenBit + hiddenBit - 1)
          < magnitudeValue (e * hiddenBit + hiddenBit) := by
            have hstep := magnitudeValue_lt_succ (e * hiddenBit + hiddenBit - 1)
            rwa [Nat.sub_add_cancel (by omega)] at hstep
        _ ≤ n := not_lt.mp fun hlt =>
            absurd ((lt_magnitudeValue_iff he le_rfl (by omega)).mp hlt) (by omega)
  · rcases Nat.lt_or_eq_of_le hm₂ with hlt | rfl
    · rw [Nat.add_assoc, lt_magnitudeValue_iff he (by omega) (by omega)]
      linarith
    · calc (n : ℚ) < magnitudeValue (e * hiddenBit + 2 * hiddenBit) :=
            (lt_magnitudeValue_iff he (by omega) le_rfl).mpr hhigh
        _ < magnitudeValue (e * hiddenBit + 2 * hiddenBit + 1) := magnitudeValue_lt_succ _

end

/-- A whole number scaled to the bits of a significand. -/
theorem scaled_bounds {n : Nat} (h : n ≠ 0) :
    hiddenBit * 2 ^ (n.log2 - 52) ≤ n * 2 ^ (52 - n.log2) ∧
      n * 2 ^ (52 - n.log2) < 2 * hiddenBit * 2 ^ (n.log2 - 52) := by
  have hlog : 2 ^ n.log2 ≤ n := Nat.log2_self_le h
  have hlog' : n < 2 ^ (n.log2 + 1) := Nat.lt_log2_self
  generalize n.log2 = l at *
  generalize hs : 52 - l = s
  generalize hd : l - 52 = d
  have hsum : l + s = 52 + d := by omega
  constructor
  · calc hiddenBit * 2 ^ d = 2 ^ (52 + d) := by rw [Nat.pow_add]; rfl
      _ = 2 ^ l * 2 ^ s := by rw [← hsum, Nat.pow_add]
      _ ≤ n * 2 ^ s := Nat.mul_le_mul_right _ hlog
  · calc n * 2 ^ s < 2 ^ (l + 1) * 2 ^ s := Nat.mul_lt_mul_of_pos_right hlog' (by positivity)
      _ = 2 * 2 ^ (52 + d) := by rw [← hsum]; ring
      _ = 2 * hiddenBit * 2 ^ d := by rw [Nat.pow_add, ← Nat.mul_assoc]; rfl

/-- The magnitude of the number that a whole number of no more than a word is rounded to. -/
def roundedMagnitude (n : Nat) : Nat :=
  if n = 0 then 0
  else (n.log2 + 1022) * hiddenBit + divNearest (n * 2 ^ (52 - n.log2)) (2 ^ (n.log2 - 52))

theorem neighbours_roundedMagnitude {n : Nat} (h : n ≠ 0) (hn : n.log2 < 64) :
    Neighbours (roundedMagnitude n) n := by
  obtain ⟨hlow, hhigh⟩ := scaled_bounds h
  rw [roundedMagnitude, if_neg h]
  exact neighbours_divNearest (by omega) (by omega) hlow hhigh

/-- The key `k` is not that of an infinity, and its neighbours enclose `i`. -/
structure Encloses (k i : ℤ) : Prop where
  finite : |k| + 1 < infinityMagnitude
  below : keyValue (k - 1) < i
  above : i < keyValue (k + 1)

theorem Neighbours.encloses {m n : Nat} (h : Neighbours m n) : Encloses m n := by
  obtain ⟨hpos, hsize, hbelow, habove⟩ := h
  refine ⟨by rw [Nat.abs_cast]; omega, ?_, ?_⟩
  · rw [show (m : ℤ) - 1 = (m - 1 : Nat) by omega, keyValue_natCast]
    exact_mod_cast hbelow
  · rw [show (m : ℤ) + 1 = (m + 1 : Nat) by omega, keyValue_natCast]
    exact_mod_cast habove

theorem Encloses.neg {k i : ℤ} (h : Encloses k i) : Encloses (-k) (-i) := by
  obtain ⟨hsize, hbelow, habove⟩ := h
  refine ⟨by rwa [abs_neg], ?_, ?_⟩
  · rw [show -k - 1 = -(k + 1) by ring, keyValue_neg]
    push_cast
    exact neg_lt_neg habove
  · rw [show -k + 1 = -(k - 1) by ring, keyValue_neg]
    push_cast
    exact neg_lt_neg hbelow

theorem encloses_zero : Encloses 0 0 := by
  have hzero : keyValue 0 = 0 := by simp [keyValue]
  refine ⟨by decide, ?_, ?_⟩
  · calc keyValue (0 - 1) < keyValue 0 := keyValue_strictMono (by omega)
      _ = ((0 : ℤ) : ℚ) := hzero
  · calc ((0 : ℤ) : ℚ) = keyValue 0 := hzero.symm
      _ < keyValue (0 + 1) := keyValue_strictMono (by omega)

/-- Whole numbers of no more than a word are rounded to a number between whose neighbours they
are. -/
theorem ofRatio_one {n : Nat} (s : Bool) (h : n.log2 < 64) :
    ofRatio s n 1 = ofMagnitude s (roundedMagnitude n) ∧
      roundedMagnitude n < infinityMagnitude ∧ Encloses (roundedMagnitude n) n := by
  by_cases hn : n = 0
  · subst hn
    exact ⟨rfl, by decide, encloses_zero⟩
  · have hm := neighbours_roundedMagnitude hn h
    have hfinite := hm.finite
    refine ⟨?_, by omega, hm.encloses⟩
    have he : ((n.log2 : ℤ) - 52 + 1074).toNat = n.log2 + 1022 := by omega
    rw [roundedMagnitude, if_neg hn] at hfinite ⊢
    simp only [ofRatio, hn, if_false, nearest_one hn h, he]
    rw [Nat.min_eq_left (by omega)]

theorem isNegative_ofInt {i : ℤ} (h : i.natAbs.log2 < 64) :
    (ofInt i).isNegative = decide (i < 0) := by
  obtain ⟨hi, hm, -⟩ := ofRatio_one (i < 0) h
  rw [ofInt, hi, isNegative_ofMagnitude _ (hm.trans (by decide))]

theorem magnitude_ofInt {i : ℤ} (h : i.natAbs.log2 < 64) :
    (ofInt i).magnitude = roundedMagnitude i.natAbs := by
  obtain ⟨hi, hm, -⟩ := ofRatio_one (i < 0) h
  rw [ofInt, hi, magnitude_ofMagnitude _ (hm.trans (by decide))]

/-- An integer of no more than a word is between the neighbours of its floating point number. -/
theorem encloses_ofInt {i : ℤ} (h : i.natAbs.log2 < 64) :
    (ofInt i).isNaN = false ∧ Encloses (ofInt i).key i := by
  obtain ⟨-, hm, henc⟩ := ofRatio_one (i < 0) h
  constructor
  · rw [isNaN, magnitude_ofInt h]
    simpa using hm.le
  · unfold key
    rw [isNegative_ofInt h, magnitude_ofInt h]
    by_cases hneg : i < 0
    · have hi' : i = -(i.natAbs : ℤ) := by omega
      rw [if_pos (by simpa using hneg), hi', Int.natAbs_neg, Int.natAbs_natCast]
      exact henc.neg
    · have hi' : i = (i.natAbs : ℤ) := by omega
      rw [if_neg (by simpa using hneg), hi', Int.natAbs_natCast]
      exact henc

/-! ### Order -/

theorem Encloses.ofKey_lt {k i j : ℤ} (h : Encloses k i) (hjk : j < k) : ofKey j < ofInteger i := by
  obtain ⟨hsize, hbelow, -⟩ := h
  obtain ⟨hlow, hhigh⟩ := abs_lt.mp (show |k| < infinityMagnitude by omega)
  unfold ofKey
  split
  · exact WithBot.bot_lt_coe _
  · rw [if_neg (by omega)]
    refine WithBot.coe_lt_coe.mpr (WithTop.coe_lt_coe.mpr ?_)
    calc keyValue j ≤ keyValue (k - 1) := keyValue_strictMono.monotone (by omega)
      _ < i := hbelow

theorem Encloses.lt_ofKey {k i j : ℤ} (h : Encloses k i) (hkj : k < j) : ofInteger i < ofKey j := by
  obtain ⟨hsize, -, habove⟩ := h
  obtain ⟨hlow, hhigh⟩ := abs_lt.mp (show |k| < infinityMagnitude by omega)
  unfold ofKey
  rw [if_neg (by omega)]
  split
  · exact WithBot.coe_lt_coe.mpr (WithTop.coe_lt_top _)
  · refine WithBot.coe_lt_coe.mpr (WithTop.coe_lt_coe.mpr ?_)
    calc (i : ℚ) < keyValue (k + 1) := habove
      _ ≤ keyValue j := keyValue_strictMono.monotone (by omega)

/-- Rounding an integer changes its order to a number in one way only: it may make them equal. -/
theorem compare_ofInt {i : ℤ} {x : Binary64} (hi : i.natAbs.log2 < 64) (hx : x.isNaN = false) :
    compare (ofInt i).exact x.exact =
      if (ofInt i).exact = x.exact then .eq else compare (ofInteger i) x.exact := by
  obtain ⟨hnan, h⟩ := encloses_ofInt hi
  by_cases heq : (ofInt i).exact = x.exact
  · rw [if_pos heq, heq, compare_eq_iff_eq]
  · rw [if_neg heq]
    have hcmp := compare_exact hnan hx
    rcases lt_trichotomy (ofInt i).key x.key with hlt | hk | hgt
    · rw [hcmp, compare_lt_iff_lt.mpr hlt, exact_eq_ofKey hx,
        compare_lt_iff_lt.mpr (h.lt_ofKey hlt)]
    · rw [exact_eq_ofKey hnan, exact_eq_ofKey hx, hk] at heq
      exact absurd rfl heq
    · rw [hcmp, compare_gt_iff_gt.mpr hgt, exact_eq_ofKey hx,
        compare_gt_iff_gt.mpr (h.ofKey_lt hgt)]

/-! ### Monotonicity -/

theorem divNearest_mono {m n den : Nat} (h : m ≤ n) : divNearest m den ≤ divNearest n den := by
  have hq : m / den ≤ n / den := Nat.div_le_div_right h
  have hm := Nat.div_add_mod' m den
  have hn := Nat.div_add_mod' n den
  unfold divNearest
  simp only [Bool.or_eq_true, decide_eq_true_eq, Bool.and_eq_true, beq_iff_eq]
  rcases Nat.lt_or_eq_of_le hq with hlt | heq
  · split <;> split <;> omega
  · -- with one quotient it is the remainders that grow
    rw [heq] at hm ⊢
    split <;> split <;> omega

theorem roundedMagnitude_mono : Monotone roundedMagnitude := by
  intro m n h
  by_cases hm : m = 0
  · simp [roundedMagnitude, hm]
  have hn : n ≠ 0 := by omega
  have hlog : m.log2 ≤ n.log2 := (Nat.le_log2 hn).mpr ((Nat.log2_self_le hm).trans h)
  obtain ⟨-, hm'⟩ := divNearest_mem (scaled_bounds hm).1 (scaled_bounds hm).2
  obtain ⟨hn', -⟩ := divNearest_mem (scaled_bounds hn).1 (scaled_bounds hn).2
  rw [roundedMagnitude, roundedMagnitude, if_neg hm, if_neg hn]
  rcases Nat.lt_or_eq_of_le hlog with hlt | heq
  · -- the power of two between them is a number of both scales
    have hscale : (m.log2 + 1 + 1022) * hiddenBit ≤ (n.log2 + 1022) * hiddenBit :=
      Nat.mul_le_mul_right _ (by omega)
    calc (m.log2 + 1022) * hiddenBit + divNearest (m * 2 ^ (52 - m.log2)) (2 ^ (m.log2 - 52))
        ≤ (m.log2 + 1022) * hiddenBit + 2 * hiddenBit := Nat.add_le_add_left hm' _
      _ = (m.log2 + 1 + 1022) * hiddenBit + hiddenBit := by ring
      _ ≤ (n.log2 + 1022) * hiddenBit + divNearest (n * 2 ^ (52 - n.log2)) (2 ^ (n.log2 - 52)) :=
        Nat.add_le_add hscale hn'
  · rw [heq]
    exact Nat.add_le_add_left (divNearest_mono (Nat.mul_le_mul_right _ h)) _

theorem totalKey_ofInt {i : ℤ} (h : i.natAbs.log2 < 64) :
    (ofInt i).totalKey =
      if i < 0 then -1 - (roundedMagnitude i.natAbs : ℤ) else roundedMagnitude i.natAbs := by
  unfold totalKey
  rw [isNegative_ofInt h, magnitude_ofInt h]
  simp only [decide_eq_true_eq]

/-- Rounding integers of no more than a word keeps their order. -/
theorem totalKey_ofInt_le {i j : ℤ} (hi : i.natAbs.log2 < 64) (hj : j.natAbs.log2 < 64)
    (hij : i ≤ j) : (ofInt i).totalKey ≤ (ofInt j).totalKey := by
  rw [totalKey_ofInt hi, totalKey_ofInt hj]
  split <;> split
  · have hle := roundedMagnitude_mono (show j.natAbs ≤ i.natAbs by omega)
    omega
  · omega
  · omega
  · have hle := roundedMagnitude_mono (show i.natAbs ≤ j.natAbs by omega)
    omega

theorem eq_of_bits {x y : Binary64} (h : x.bits.toNat = y.bits.toNat) : x = y := by
  obtain ⟨b⟩ := x
  obtain ⟨c⟩ := y
  exact congrArg mk (UInt64.toNat_inj.mp h)

theorem totalKey_injective : Function.Injective totalKey := by
  intro x y h
  have hx := x.bits.toNat_lt
  have hy := y.bits.toNat_lt
  refine eq_of_bits ?_
  unfold totalKey isNegative magnitude signBit at h
  simp only [decide_eq_true_eq] at h
  split at h <;> split at h <;> omega

/-- Only zero and one are rounded to zero and one. -/
theorem eq_of_totalKey_ofInt {i k : ℤ} (hi : i.natAbs.log2 < 64) (hk : k = 0 ∨ k = 1)
    (h : (ofInt i).totalKey = (ofInt k).totalKey) : i = k := by
  -- a step away the rounded number is another one already, and further away it is no closer
  have hsteps : (ofInt (k - 1)).totalKey < (ofInt k).totalKey ∧
      (ofInt k).totalKey < (ofInt (k + 1)).totalKey := by
    rcases hk with rfl | rfl <;> decide +kernel
  have hsmall : (k - 1).natAbs.log2 < 64 ∧ (k + 1).natAbs.log2 < 64 := by
    rcases hk with rfl | rfl <;> decide
  rcases lt_trichotomy i k with hlt | heq | hgt
  · have hle := totalKey_ofInt_le hi hsmall.1 (by omega)
    omega
  · exact heq
  · have hle := totalKey_ofInt_le hsmall.2 hi (by omega)
    omega

/-! ### Conversion to words -/

theorem denominator_pos (x : Binary64) : 0 < x.denominator := Nat.pow_pos (by decide)

theorem exact_eq_ofInteger_iff {x : Binary64} {i : ℤ} :
    x.exact = ofInteger i ↔ x.isFinite = true ∧ x.toRat = i := by
  unfold exact ofInteger
  by_cases hf : x.isFinite = true
  · rw [if_pos hf]
    exact ⟨fun h => ⟨hf, WithTop.coe_injective (WithBot.coe_injective h)⟩, fun h => by rw [h.2]⟩
  · rw [if_neg hf]
    refine ⟨fun h => ?_, fun h => absurd h.1 hf⟩
    split at h
    · exact absurd h (WithBot.bot_ne_coe)
    · exact absurd (WithBot.coe_injective h) WithTop.top_ne_coe

theorem exact_of_isIntegral {x : Binary64} (h : x.isIntegral = true) :
    x.exact = ofInteger x.truncate := by
  obtain ⟨hf, hmod⟩ : x.isFinite = true ∧ x.numerator % x.denominator = 0 := by
    simpa [isIntegral] using h
  have hdiv : (x.numerator : ℚ) / x.denominator = (x.numerator / x.denominator : Nat) :=
    (Nat.cast_div (Nat.dvd_of_mod_eq_zero hmod) (by have := x.denominator_pos; positivity)).symm
  refine exact_eq_ofInteger_iff.mpr ⟨hf, ?_⟩
  unfold toRat truncate
  rw [hdiv]
  split
  · push_cast
    rfl
  · rfl

theorem isIntegral_of_exact {x : Binary64} {i : ℤ} (h : x.exact = ofInteger i) :
    x.isIntegral = true := by
  obtain ⟨hf, hi⟩ := exact_eq_ofInteger_iff.mp h
  have hpos : (0 : ℚ) < x.denominator := by exact_mod_cast x.denominator_pos
  have hdvd : (x.denominator : ℤ) ∣ x.numerator := by
    rw [toRat] at hi
    split at hi
    · refine ⟨-i, ?_⟩
      have hq : (x.numerator : ℚ) = x.denominator * -i := by
        rw [← hi]
        field_simp
      exact_mod_cast hq
    · refine ⟨i, ?_⟩
      have hq : (x.numerator : ℚ) = x.denominator * i := by
        rw [← hi]
        field_simp
      exact_mod_cast hq
  simp [isIntegral, hf, Nat.mod_eq_zero_of_dvd (Int.natCast_dvd_natCast.mp hdvd)]

theorem natAbs_truncate_lt {x : Binary64} (h : x.fitsWord = true) :
    x.truncate.natAbs < wordLimit := by
  have hlt : x.numerator < wordLimit * x.denominator := by
    simp only [fitsWord, Bool.and_eq_true, decide_eq_true_eq] at h
    exact h.2
  have hq : x.numerator / x.denominator < wordLimit :=
    (Nat.div_lt_iff_lt_mul x.denominator_pos).mpr hlt
  unfold truncate
  dsimp only
  split
  · rwa [Int.natAbs_neg, Int.natAbs_natCast]
  · rwa [Int.natAbs_natCast]

/-- A number is converted to the word that it equals, unless it is too large for that. -/
theorem toWord?_eq_some_iff {x : Binary64} {i : Int64} :
    x.toWord? = some i ↔ x.exact = ofInteger i.toInt ∧ x.fitsWord = true := by
  unfold toWord?
  constructor
  · intro h
    obtain ⟨⟨hint, hfits⟩, rfl⟩ : (x.isIntegral = true ∧ x.fitsWord = true) ∧
        Int64.ofInt x.truncate = i := by simpa using h
    have hlt := natAbs_truncate_lt hfits
    have hlimit : wordLimit < 2 ^ 63 := by decide
    rw [Int64.toInt_ofInt_of_le (by omega) (by omega)]
    exact ⟨exact_of_isIntegral hint, hfits⟩
  · rintro ⟨hexact, hfits⟩
    have hint := isIntegral_of_exact hexact
    have htrunc : x.truncate = i.toInt :=
      ofInteger_strictMono.injective ((exact_of_isIntegral hint).symm.trans hexact)
    rw [hint, hfits, htrunc]
    simp

end TemplateEngine.Binary64
