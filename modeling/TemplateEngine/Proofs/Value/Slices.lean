import Mathlib.Tactic.Linarith
import Mathlib.Tactic.Ring
import TemplateEngine.Proofs.Value.Overflow

/-!
# Slices

A slice has the items at the indices `first`, `first + step`, `first + 2 * step` and so on, as far
as they come before its limit on the way (`IsSlice`).  The first index and the limit are the bounds
brought into the range that a way up or a way down passes through; a way down ends in front of the
first item, at minus one.  Every index on the way is that of an item, and only the step zero makes
slicing fail (`Value.slice_isSlice`).

The indices are those that a walk over words finds, which adds the step as long as the sum fits a
word (`Number.map_toInt_walk`).
-/

namespace TemplateEngine

/-- On the way by `step` the integer `i` comes before `j`. -/
def Before (step i j : Int) : Prop := 0 < step ∧ i < j ∨ step < 0 ∧ j < i

instance (step i j : Int) : Decidable (Before step i j) := inferInstanceAs (Decidable (_ ∨ _))

namespace Slice

variable (length : Nat) (step : Int)

/-- The lowest position on the way: a way down ends in front of the first item. -/
def lowest : Int := if step < 0 then -1 else 0

/-- The highest position on the way: a way up ends behind the last item. -/
def highest : Int := if step < 0 then length - 1 else length

/-- The position that a bound stands for.  A negative one counts from the end, and one that lies
outside of the way stands for the nearest position on it. -/
def position (bound : Int64) : Int :=
  max (lowest step)
    (min (highest length step) (if bound < 0 then bound.toInt + length else bound.toInt))

/-- The index that the way begins with. -/
def first (start : Option Int64) : Int :=
  start.elim (if step < 0 then highest length step else lowest step) (position length step)

/-- The `k`-th index on the way. -/
def index (start : Option Int64) (k : Nat) : Int := first length step start + k * step

/-- The position that ends the way. -/
def limit (stop : Option Int64) : Int :=
  stop.elim (if step < 0 then lowest step else highest length step) (position length step)

end Slice

/-- `out` is the slice of the items from `start` to `stop` by `step`: the `k`-th of its items is the
one at the `k`-th index on the way, which is that of an item. -/
structure IsSlice {α : Type} (items : List α) (start stop : Option Int64) (step : Int)
    (out : List α) : Prop where
  inBounds (k : Nat) :
    Before step (Slice.index items.length step start k) (Slice.limit items.length step stop) →
      0 ≤ Slice.index items.length step start k ∧
        Slice.index items.length step start k < items.length
  getElem? (k : Nat) :
    out[k]? =
      if Before step (Slice.index items.length step start k) (Slice.limit items.length step stop)
      then items[(Slice.index items.length step start k).toNat]?
      else none

/-! ### Progressions -/

namespace Number

/-- A progression has the integers on the way, in this order. -/
theorem getElem?_progression (start stop : Int) {step : Int} (hstep : step ≠ 0) (k : Nat) :
    (progression start stop step)[k]? =
      if Before step (start + k * step) stop then some (start + k * step) else none := by
  have hcount : k < (if 0 < step then (stop - start + step - 1) / step
      else (start - stop - step - 1) / -step).toNat ↔ Before step (start + k * step) stop := by
    have hnext : (k + 1 : Int) * step = k * step + step := by ring
    split
    · next hpos =>
      have hdiv := Int.le_ediv_iff_mul_le (a := k + 1) (b := stop - start + step - 1) hpos
      rw [hnext] at hdiv
      unfold Before
      omega
    · next hneg =>
      have hdiv := Int.le_ediv_iff_mul_le (a := k + 1) (b := start - stop - step - 1)
        (c := -step) (by omega)
      rw [Int.mul_neg, hnext] at hdiv
      unfold Before
      omega
  rw [progression, List.getElem?_map]
  by_cases h : Before step (start + k * step) stop
  · rw [if_pos h, List.getElem?_range (hcount.mpr h), Option.map_some]
  · rw [if_neg h, List.getElem?_eq_none (by simpa using mt hcount.mp h), Option.map_none]

theorem progression_of_before {start stop step : Int} (h : Before step start stop) :
    progression start stop step = start :: progression (start + step) stop step := by
  have hstep : step ≠ 0 := by
    rintro rfl
    simp [Before] at h
  refine List.ext_getElem? fun k => ?_
  cases k with
  | zero => simp [getElem?_progression _ _ hstep, h]
  | succ k =>
    have hnext : start + (k + 1 : Nat) * step = start + step + k * step := by
      push_cast
      ring
    rw [List.getElem?_cons_succ, getElem?_progression _ _ hstep, getElem?_progression _ _ hstep,
      hnext]

theorem progression_of_not_before {start stop step : Int} (hstep : step ≠ 0)
    (h : ¬ Before step start stop) : progression start stop step = [] := by
  have hzero : (progression start stop step)[0]? = none := by
    simp [getElem?_progression _ _ hstep, h]
  exact List.eq_nil_of_length_eq_zero (Nat.le_zero.mp (List.getElem?_eq_none_iff.mp hzero))

/-! ### The walk over words -/

/-- The words on the way from `i` to `stop`.  The way also ends where the next integer fits no
word. -/
def walk (step stop i : Int64) : List Int64 :=
  if Before step.toInt i.toInt stop.toInt then
    i :: match _h : fit? (i.toInt + step.toInt) with
      | some next => walk step stop next
      | none => []
  else []
termination_by
  if 0 < step.toInt then (stop.toInt - i.toInt).toNat else (i.toInt - stop.toInt).toNat
decreasing_by
  have hnext := toInt_of_fit? _h
  unfold Before at *
  split <;> omega

/-- A sum that fits no word is beyond every word on the way. -/
theorem not_before_of_fit?_eq_none {step i : Int64} (stop : Int64)
    (h : fit? (i.toInt + step.toInt) = none) :
    ¬ Before step.toInt (i.toInt + step.toInt) stop.toInt := by
  have hlow := stop.le_toInt
  have hhigh := stop.toInt_lt
  have hlow' := i.le_toInt
  have hhigh' := i.toInt_lt
  unfold fit? at h
  split at h
  · cases h
  · unfold Before
    omega

/-- The walk finds all of the progression. -/
theorem map_toInt_walk {step : Int64} (hstep : step.toInt ≠ 0) (stop i : Int64) :
    (walk step stop i).map Int64.toInt = progression i.toInt stop.toInt step.toInt := by
  induction i using walk.induct step stop with
  | case1 i h ih =>
    rw [walk, if_pos h, progression_of_before h, List.map_cons]
    congr 1
    split
    · next next hnext => rw [ih next hnext, toInt_of_fit? hnext]
    · next hnone =>
      rw [progression_of_not_before hstep (not_before_of_fit?_eq_none stop hnone), List.map_nil]
  | case2 i h => rw [walk, if_neg h, progression_of_not_before hstep h, List.map_nil]

/-! ### Bounds on words -/

theorem toInt_max (a b : Int64) : (max a b).toInt = max a.toInt b.toInt := by
  rw [Int.max_def, ← apply_ite Int64.toInt]
  simp only [max, Int64.le_iff_toInt_le]

theorem toInt_min (a b : Int64) : (min a b).toInt = min a.toInt b.toInt := by
  rw [Int.min_def, ← apply_ite Int64.toInt]
  simp only [min, Int64.le_iff_toInt_le]

/-- A bound of a slice brought into the range from `low` to `high`, on words. -/
def clampWord (length low high bound : Int64) : Int64 :=
  if bound < 0 then max (bound + length) low else min bound high

/-- The indices of a slice, found by a walk over words. -/
def sliceWalk (length : Int64) (start stop : Option Int64) (step : Int64) : List Int64 :=
  if 0 < step then
    walk step (stop.elim length (clampWord length 0 length))
      (start.elim 0 (clampWord length 0 length))
  else
    walk step (stop.elim (-1) (clampWord length (-1) (length - 1)))
      (start.elim (length - 1) (clampWord length (-1) (length - 1)))

theorem toInt_clampWord {length : Int64} (hlength : 0 ≤ length.toInt) (low high bound : Int64) :
    (clampWord length low high bound).toInt =
      Value.clamp length.toInt low.toInt high.toInt bound.toInt := by
  simp only [clampWord, Value.clamp, Int64.lt_iff_toInt_lt, Int64.toInt_zero]
  split
  · next hneg =>
    have hlow := bound.le_toInt
    have hhigh := length.toInt_lt
    rw [toInt_max, Int64.toInt_add, Int.bmod_eq_of_le (by omega) (by omega)]
  · exact toInt_min bound high

theorem map_toInt_sliceWalk {length : Int64} {n : Nat} (hlength : length.toInt = n)
    (start stop : Option Int64) {step : Int64} (hstep : step.toInt ≠ 0) :
    (sliceWalk length start stop step).map Int64.toInt =
      Value.sliceIndices n start stop step.toInt := by
  have hone : (length - 1).toInt = length.toInt - 1 := by
    have hhigh := length.toInt_lt
    have hword : (1 : Int64).toInt = 1 := rfl
    rw [Int64.toInt_sub, hword, Int.bmod_eq_of_le (by omega) (by omega)]
  have hminus : (-1 : Int64).toInt = -1 := rfl
  have hclamp := toInt_clampWord (show 0 ≤ length.toInt by omega)
  simp only [sliceWalk, Value.sliceIndices, Int64.lt_iff_toInt_lt, Int64.toInt_zero]
  split
  · rw [map_toInt_walk hstep]
    cases start <;> cases stop <;> simp [hclamp, hlength]
  · rw [map_toInt_walk hstep]
    cases start <;> cases stop <;> simp [hclamp, hlength, hone, hminus]

end Number

/-! ### The way of a slice -/

namespace Slice

theorem clamp_eq_position (n : Nat) (step : Int) (bound : Int64) :
    Value.clamp n (lowest step) (highest n step) bound.toInt = position n step bound := by
  simp only [Value.clamp, position, lowest, highest, Int64.lt_iff_toInt_lt, Int64.toInt_zero]
  split <;> split <;> omega

theorem sliceIndices_eq (n : Nat) (start stop : Option Int64) {step : Int} (hstep : step ≠ 0) :
    Value.sliceIndices n start stop step =
      Number.progression (first n step start) (limit n step stop) step := by
  have hclamp := clamp_eq_position n step
  unfold Value.sliceIndices first limit
  by_cases hneg : step < 0
  · simp only [lowest, highest, if_pos hneg] at hclamp
    simp only [hclamp, lowest, highest, if_pos hneg, if_neg (show ¬ 0 < step by omega)]
  · simp only [lowest, highest, if_neg hneg] at hclamp
    simp only [hclamp, lowest, highest, if_neg hneg, if_pos (show 0 < step by omega)]

theorem position_mem (n : Nat) (step : Int) (bound : Int64) :
    lowest step ≤ position n step bound ∧ position n step bound ≤ highest n step := by
  unfold position lowest highest
  split <;> omega

/-- An absent bound stands for an end of the way. -/
theorem elim_mem {n : Nat} {step d : Int} (hd : d = lowest step ∨ d = highest n step)
    (bound : Option Int64) :
    lowest step ≤ bound.elim d (position n step) ∧
      bound.elim d (position n step) ≤ highest n step := by
  cases bound with
  | none =>
    have hle : lowest step ≤ highest n step := by
      unfold lowest highest
      split <;> omega
    rw [Option.elim_none]
    omega
  | some bound => exact position_mem n step bound

/-- Every index on the way is that of an item: a way up begins at zero or above and stays below its
limit, and a way down the other way round. -/
theorem inBounds {n : Nat} {start stop : Option Int64} {step : Int} {k : Nat}
    (h : Before step (index n step start k) (limit n step stop)) :
    0 ≤ index n step start k ∧ index n step start k < n := by
  have hfirst : lowest step ≤ first n step start ∧ first n step start ≤ highest n step :=
    elim_mem (by split <;> simp) start
  have hlimit : lowest step ≤ limit n step stop ∧ limit n step stop ≤ highest n step :=
    elim_mem (by split <;> simp) stop
  unfold lowest highest at hfirst hlimit
  unfold index at h ⊢
  rcases h with ⟨hpos, h⟩ | ⟨hneg, h⟩
  · have hway : 0 ≤ k * step := Int.mul_nonneg (Int.natCast_nonneg k) hpos.le
    simp only [if_neg (show ¬ step < 0 by omega)] at hfirst hlimit
    omega
  · have hway : k * step ≤ 0 := Int.mul_nonpos_of_nonneg_of_nonpos (Int.natCast_nonneg k) hneg.le
    simp only [if_pos hneg] at hfirst hlimit
    omega

end Slice

/-! ### Slicing -/

namespace Value

/-- The result of slicing `items`, of which `wrap` makes a value.  It fails for the step zero alone,
and otherwise it is the slice, whose items are those that the walk over words finds. -/
structure SlicesTo {α : Type} (items : List α) (wrap : List α → Value)
    (start stop step : Option Int64) (r : Except Error Value) : Prop where
  fails : step = some 0 → r = .error (.render .zeroSliceStep none)
  succeeds : step ≠ some 0 → ∃ out, r = .ok (wrap out) ∧
    IsSlice items start stop (step.getD 1).toInt out ∧
    ∀ length : Int64, length.toInt = items.length →
      out.map some = (Number.sliceWalk length start stop (step.getD 1)).map fun i =>
        items[i.toInt.toNat]?

variable {α : Type} {items : List α} {start stop : Option Int64} {step : Int}

/-- The indices of a slice are those on the way. -/
theorem getElem?_sliceIndices (n : Nat) (start stop : Option Int64) (hstep : step ≠ 0) (k : Nat) :
    (sliceIndices n start stop step)[k]? =
      if Before step (Slice.index n step start k) (Slice.limit n step stop) then
        some (Slice.index n step start k)
      else none := by
  rw [Slice.sliceIndices_eq n start stop hstep, Number.getElem?_progression _ _ hstep]
  rfl

/-- No index of a slice is left out. -/
theorem map_some_filterMap_sliceIndices (items : List α) (start stop : Option Int64)
    (hstep : step ≠ 0) :
    ((sliceIndices items.length start stop step).filterMap fun i => items[i.toNat]?).map some =
      (sliceIndices items.length start stop step).map fun i => items[i.toNat]? := by
  rw [List.map_filterMap_some_eq_filter_map_isSome, List.filter_eq_self]
  intro item hitem
  obtain ⟨i, hi, rfl⟩ := List.mem_map.mp hitem
  obtain ⟨k, hk⟩ := List.mem_iff_getElem?.mp hi
  rw [getElem?_sliceIndices _ _ _ hstep] at hk
  split at hk
  · next hbefore =>
    cases hk
    have hbound := Slice.inBounds hbefore
    rw [List.getElem?_eq_getElem (by omega)]
    rfl
  · cases hk

theorem isSlice_sliceIndices (hstep : step ≠ 0) :
    IsSlice items start stop step
      ((sliceIndices items.length start stop step).filterMap fun i => items[i.toNat]?) where
  inBounds _ := Slice.inBounds
  getElem? k := by
    have hall := congrArg (·[k]?) (map_some_filterMap_sliceIndices items start stop hstep)
    simp only [List.getElem?_map, getElem?_sliceIndices _ _ _ hstep] at hall
    split at hall
    · next hbefore =>
      obtain ⟨item, hout, hitem⟩ := Option.map_eq_some_iff.mp hall
      rw [if_pos hbefore, hout, hitem]
    · next hbefore =>
      rw [if_neg hbefore]
      exact Option.map_eq_none_iff.mp hall

theorem slicesTo (items : List α) (wrap : List α → Value) (start stop step : Option Int64) :
    SlicesTo items wrap start stop step ((sliceItems items start stop step).map wrap) where
  fails h := by rw [h]; rfl
  succeeds h := by
    have hword : (step.getD 1).toInt ≠ 0 := by
      cases step with
      | none => decide
      | some w => exact fun hw => h (congrArg some (Int64.toInt_inj.mp hw))
    refine ⟨_, ?_, isSlice_sliceIndices hword, fun length hlength => ?_⟩
    · simp only [sliceItems, if_neg hword]
      rfl
    · rw [map_some_filterMap_sliceIndices _ _ _ hword,
        ← Number.map_toInt_sliceWalk hlength start stop hword, List.map_map]
      rfl

/-- **Slices.**  Slicing a string, a list or a tuple fails for the step zero alone, and otherwise
gives the items at `first`, `first + step`, `first + 2 * step` and so on in front of the limit.
Their indices are all in bounds. -/
theorem slice_isSlice (start stop step : Option Int64) :
    (∀ s : String, SlicesTo s.toList (fun cs => .str (String.ofList cs)) start stop step
      ((Value.str s).slice start stop step)) ∧
    (∀ xs : List Value, SlicesTo xs .list start stop step
      ((Value.list xs).slice start stop step)) ∧
    ∀ xs : List Value, SlicesTo xs .tuple start stop step
      ((Value.tuple xs).slice start stop step) :=
  ⟨fun s => slicesTo s.toList _ start stop step, fun xs => slicesTo xs _ start stop step,
    fun xs => slicesTo xs _ start stop step⟩

/-- Every second character from the last but one on, counted backwards. -/
example : (Value.str "grüße").slice (some (-2)) none (some (-2)) = .ok (.str "ßr") := by
  rfl

end Value

end TemplateEngine
