import TemplateEngine.Proofs.Value.Equality

/-!
# The order of sorting

`totalOrder` places any two values.  It can be turned round (`totalOrder_swap`), and it is
transitive on values among which no floating point number is what two integers are rounded to
(`orderOn`): integers are ordered exactly among themselves and by their rounding beside other
numbers.  What `<` calls less is less for sorting too (`totalOrder_of_order?`), provided that the
items of sequences are one for sorting when they are equal, as they are unless zeros of both signs
are among them.
-/

namespace TemplateEngine

namespace Value

/-! ### Classes -/

/-- The place of a value's class in the order of sorting; what has no class is last. -/
def rank (a : Value) : Nat := a.sortClass?.getD 4

theorem sortClass?_lt {a : Value} {c : Nat} (h : a.sortClass? = some c) : c < 4 := by
  cases a <;> cases h <;> decide

theorem totalOrder_of_rank_ne {a b : Value} (h : a.rank ≠ b.rank) :
    a.totalOrder b = compare a.rank b.rank := by
  have hclass : a.totalOrder b = classOrder a b := by
    rw [totalOrder.eq_def]
    split
    · exact absurd rfl h
    · exact absurd rfl h
    · exact absurd rfl h
    · rfl
  rw [hclass]
  unfold classOrder rank
  unfold rank at h
  cases ha : a.sortClass? with
  | none =>
    cases hb : b.sortClass? with
    | none => exact absurd (by rw [ha, hb]) h
    | some y =>
      have hy := sortClass?_lt hb
      exact (compare_gt_iff_gt.mpr (show y < 4 from hy)).symm
  | some x =>
    cases hb : b.sortClass? with
    | none =>
      have hx := sortClass?_lt ha
      exact (compare_lt_iff_lt.mpr (show x < 4 from hx)).symm
    | some y =>
      have hne : x ≠ y := by simpa [ha, hb] using h
      simp only [ne_eq, hne, not_false_eq_true, if_true, Option.getD_some]

/-! ### Numbers -/

/-- The key of a number that is ordered in floating point. -/
def sortKey (a : Value) : Int := (a.asFloat?.getD (.zero false)).totalKey

theorem totalOrder_int (i j : Int64) : (Value.int i).totalOrder (.int j) = compare i j := by
  simp [totalOrder, classOrder, sortClass?]

/-- Numbers that are not both integers are ordered in floating point. -/
theorem totalOrder_of_number? {a b : Value} {x y : Numeric} (ha : a.number? = some x)
    (hb : b.number? = some y) (h : ∀ i j, a = .int i → b ≠ .int j) :
    a.totalOrder b = compare a.sortKey b.sortKey := by
  cases a <;> cases ha <;> cases b <;> cases hb <;>
    simp [totalOrder, classOrder, sortClass?, sortKey] at h ⊢

/-- Two numbers are ordered as integers or, in either direction, in floating point. -/
theorem totalOrder_numbers {a b : Value} {x y : Numeric} (ha : a.number? = some x)
    (hb : b.number? = some y) :
    (∃ i j, a = .int i ∧ b = .int j) ∨
      a.totalOrder b = compare a.sortKey b.sortKey ∧
        b.totalOrder a = compare b.sortKey a.sortKey := by
  by_cases hint : ∃ i j, a = .int i ∧ b = .int j
  · exact .inl hint
  · exact .inr ⟨totalOrder_of_number? ha hb fun i j hi hj => hint ⟨i, j, hi, hj⟩,
      totalOrder_of_number? hb ha fun j i hj hi => hint ⟨i, j, hi, hj⟩⟩

theorem sortKey_int_le {i j : Int64} (h : i ≤ j) : sortKey (.int i) ≤ sortKey (.int j) :=
  Binary64.totalKey_ofInt_le (Numeric.log2_toInt i) (Numeric.log2_toInt j)
    (Int64.le_iff_toInt_le.mp h)

theorem sortKey_le_of_isLE {a b : Value} {x y : Numeric} (ha : a.number? = some x)
    (hb : b.number? = some y) (h : (a.totalOrder b).isLE = true) : a.sortKey ≤ b.sortKey := by
  rcases totalOrder_numbers ha hb with ⟨i, j, rfl, rfl⟩ | ⟨hab, -⟩
  · rw [totalOrder_int, Std.isLE_compare] at h
    exact sortKey_int_le h
  · rw [hab, Std.isLE_compare] at h
    exact h

theorem totalOrder_eq_lt_of_sortKey {a b : Value} {x y : Numeric} (ha : a.number? = some x)
    (hb : b.number? = some y) (h : a.sortKey < b.sortKey) : a.totalOrder b = .lt := by
  rcases totalOrder_numbers ha hb with ⟨i, j, rfl, rfl⟩ | ⟨hab, -⟩
  · rw [totalOrder_int, Std.compare_eq_lt]
    exact Int64.not_le.mp fun hge => (sortKey_int_le hge).not_gt h
  · rw [hab, compare_lt_iff_lt]
    exact h

/-- Only zero and one are rounded to zero and one. -/
theorem eq_of_sortKey_bool {i : Int64} {b : Bool} (h : sortKey (.int i) = sortKey (.bool b)) :
    i = Number.ofBool b := by
  refine Int64.toInt_inj.mp (Binary64.eq_of_totalKey_ofInt (Numeric.log2_toInt i) ?_ h)
  cases b
  · exact .inl rfl
  · exact .inr rfl

/-- Integers and truth values are in the order of the integers. -/
theorem totalOrder_eq_lt_of_lt {a b : Value} {i j : Int64} (ha : a.number? = some (.int i))
    (hb : b.number? = some (.int j)) (h : i < j) : a.totalOrder b = .lt := by
  have hle := sortKey_int_le (Int64.le_of_lt h)
  have hne : i ≠ j := Int64.ne_of_lt h
  cases a <;> cases ha <;> cases b <;> cases hb
  · next p q =>
    refine totalOrder_eq_lt_of_sortKey rfl rfl (lt_of_le_of_ne hle fun heq => hne ?_)
    exact eq_of_sortKey_bool (i := Number.ofBool p) heq
  · next p =>
    refine totalOrder_eq_lt_of_sortKey rfl rfl (lt_of_le_of_ne hle fun heq => hne ?_)
    exact (eq_of_sortKey_bool heq.symm).symm
  · next q =>
    refine totalOrder_eq_lt_of_sortKey rfl rfl (lt_of_le_of_ne hle fun heq => hne ?_)
    exact eq_of_sortKey_bool heq
  · rw [totalOrder_int, Std.compare_eq_lt]
    exact h

/-! ### The other way round -/

theorem totalOrderAll_cons (x y : Value) (xs ys : List Value) :
    totalOrderAll (x :: xs) (y :: ys) = (x.totalOrder y).then (totalOrderAll xs ys) := by
  rw [totalOrderAll]
  cases x.totalOrder y <;> rfl

theorem totalOrderAll_swap {xs ys : List Value}
    (h : ∀ x ∈ xs, ∀ y, y.totalOrder x = (x.totalOrder y).swap) :
    totalOrderAll ys xs = (totalOrderAll xs ys).swap := by
  induction xs generalizing ys with
  | nil =>
    cases ys with
    | nil => rw [totalOrderAll]; rfl
    | cons y ys => rw [totalOrderAll, totalOrderAll, Std.OrientedOrd.eq_swap]
  | cons x xs ih =>
    cases ys with
    | nil => rw [totalOrderAll, totalOrderAll, Std.OrientedOrd.eq_swap]
    | cons y ys =>
      rw [List.forall_mem_cons] at h
      rw [totalOrderAll_cons, totalOrderAll_cons, Ordering.swap_then, h.1 y, ih h.2]

/-- Values of one class. -/
inductive SameClass : Value → Value → Prop where
  | number {a b : Value} {x y : Numeric} (ha : a.number? = some x) (hb : b.number? = some y) :
      SameClass a b
  | str (s t : String) : SameClass (.str s) (.str t)
  | list (xs ys : List Value) : SameClass (.list xs) (.list ys)
  | tuple (xs ys : List Value) : SameClass (.tuple xs) (.tuple ys)
  | unsorted {a b : Value} (ha : a.sortClass? = none) (hb : b.sortClass? = none) : SameClass a b

theorem rank_eq_iff {a b : Value} : a.rank = b.rank ↔ SameClass a b := by
  constructor
  · intro h
    cases a <;> cases b <;>
      first
        | exact .number rfl rfl
        | exact .str _ _
        | exact .list _ _
        | exact .tuple _ _
        | exact .unsorted rfl rfl
        | simp [rank, sortClass?] at h
  · intro h
    cases h with
    | number ha hb => cases a <;> cases ha <;> cases b <;> cases hb <;> rfl
    | unsorted ha hb => rw [rank, rank, ha, hb]
    | str | list | tuple => rfl

theorem totalOrder_of_sortClass? {a b : Value} (ha : a.sortClass? = none)
    (hb : b.sortClass? = none) : a.totalOrder b = compare a.typeName b.typeName := by
  cases a <;> cases ha <;> cases b <;> cases hb <;>
    simp [totalOrder, classOrder, sortClass?, stringOrder] <;> rfl

theorem totalOrder_swap (a b : Value) : b.totalOrder a = (a.totalOrder b).swap := by
  induction a using members_induction generalizing b with
  | step a ih =>
    by_cases hrank : a.rank = b.rank
    · cases rank_eq_iff.mp hrank with
      | number ha hb =>
        rcases totalOrder_numbers ha hb with ⟨i, j, rfl, rfl⟩ | ⟨hab, hba⟩
        · rw [totalOrder_int, totalOrder_int, Std.OrientedOrd.eq_swap]
        · rw [hab, hba, Std.OrientedOrd.eq_swap]
      | str s t =>
        rw [totalOrder, totalOrder]
        exact Std.OrientedOrd.eq_swap (α := String)
      | list xs ys | tuple xs ys =>
        rw [totalOrder, totalOrder]
        exact totalOrderAll_swap ih
      | unsorted ha hb =>
        rw [totalOrder_of_sortClass? ha hb, totalOrder_of_sortClass? hb ha,
          Std.OrientedOrd.eq_swap]
    · rw [totalOrder_of_rank_ne hrank, totalOrder_of_rank_ne (Ne.symm hrank),
        Std.OrientedOrd.eq_swap]

theorem isLE_totalOrder_iff {a b : Value} :
    (b.totalOrder a).isLE = true ↔ a.totalOrder b ≠ .lt := by
  rw [totalOrder_swap a b]
  cases a.totalOrder b <;> simp

/-! ### Transitivity -/

/-- What sorting takes for granted of the values it compares: no floating point number is what two
integers are rounded to. -/
def RoundsApart (S : Value → Prop) : Prop :=
  ∀ (i j : Int64) (x : Binary64), S (.int i) → S (.int j) → S (.float x) →
    Binary64.ofInt i.toInt = x → Binary64.ofInt j.toInt = x → i = j

/-- What is in a list or a tuple of these values is one of them. -/
def ItemClosed (S : Value → Prop) : Prop := ∀ a, S a → ∀ x ∈ a.members, S x

/-- On these values the order of sorting is transitive. -/
structure OrderOn (S : Value → Prop) : Prop where
  trans {a b c : Value} (ha : S a) (hb : S b) (hc : S c) (hab : (a.totalOrder b).isLE = true)
    (hbc : (b.totalOrder c).isLE = true) : (a.totalOrder c).isLE = true

theorem RoundsApart.eq_of_sortKey {S : Value → Prop} (hS : RoundsApart S) {i j : Int64} {b : Value}
    {y : Numeric} (hi : S (.int i)) (hj : S (.int j)) (hb : S b) (hy : b.number? = some y)
    (hnot : ∀ k, b ≠ .int k) (hib : sortKey (.int i) = b.sortKey)
    (hbj : b.sortKey = sortKey (.int j)) : i = j := by
  cases b <;> cases hy
  · next b => rw [eq_of_sortKey_bool hib, eq_of_sortKey_bool hbj.symm]
  · next k => exact absurd rfl (hnot k)
  · next x =>
    exact hS i j x hi hj hb (Binary64.totalKey_injective hib)
      (Binary64.totalKey_injective hbj.symm)

theorem RoundsApart.number_trans {S : Value → Prop} (hS : RoundsApart S) {a b c : Value}
    {x y z : Numeric} (ha : S a) (hb : S b) (hc : S c) (hx : a.number? = some x)
    (hy : b.number? = some y) (hz : c.number? = some z) (hab : (a.totalOrder b).isLE = true)
    (hbc : (b.totalOrder c).isLE = true) : (a.totalOrder c).isLE = true := by
  have hab' := sortKey_le_of_isLE hx hy hab
  have hbc' := sortKey_le_of_isLE hy hz hbc
  -- with one key for `a` and `c` the key of `b` is the same, and only integers are told apart
  rcases Int.lt_or_eq_of_le (hab'.trans hbc') with hlt | heq
  · rw [totalOrder_eq_lt_of_sortKey hx hz hlt]
    rfl
  rcases totalOrder_numbers hx hz with ⟨i, j, rfl, rfl⟩ | ⟨hac, -⟩
  · by_cases hk : ∃ k, b = .int k
    · obtain ⟨k, rfl⟩ := hk
      rw [totalOrder_int] at *
      exact Std.TransOrd.isLE_trans hab hbc
    · -- both are rounded to `b`
      obtain rfl := hS.eq_of_sortKey ha hc hb hy (not_exists.mp hk) (by omega) (by omega)
      rw [totalOrder_int, Std.compare_self]
      rfl
  · rw [hac, heq, Std.compare_self]
    rfl

namespace OrderOn

variable {S : Value → Prop} {a b c : Value} {xs ys zs : List Value}

theorem lt_of_lt_of_isLE (hS : OrderOn S) (ha : S a) (hb : S b) (hc : S c)
    (hab : a.totalOrder b = .lt) (hbc : (b.totalOrder c).isLE = true) : a.totalOrder c = .lt := by
  by_contra hne
  have hba := hS.trans hb hc ha hbc (isLE_totalOrder_iff.mpr hne)
  exact isLE_totalOrder_iff.mp hba hab

theorem lt_of_isLE_of_lt (hS : OrderOn S) (ha : S a) (hb : S b) (hc : S c)
    (hab : (a.totalOrder b).isLE = true) (hbc : b.totalOrder c = .lt) : a.totalOrder c = .lt := by
  by_contra hne
  have hcb := hS.trans hc ha hb (isLE_totalOrder_iff.mpr hne) hab
  exact isLE_totalOrder_iff.mp hcb hbc

theorem all_trans (hS : OrderOn S) (hx : ∀ x ∈ xs, S x) (hy : ∀ y ∈ ys, S y) (hz : ∀ z ∈ zs, S z)
    (hxy : (totalOrderAll xs ys).isLE = true) (hyz : (totalOrderAll ys zs).isLE = true) :
    (totalOrderAll xs zs).isLE = true := by
  induction xs generalizing ys zs with
  | nil =>
    rw [totalOrderAll, Nat.isLE_compare]
    exact Nat.zero_le _
  | cons x xs ih =>
    cases ys with
    | nil =>
      rw [totalOrderAll, Nat.isLE_compare] at hxy
      cases hxy
    | cons y ys =>
      cases zs with
      | nil =>
        rw [totalOrderAll, Nat.isLE_compare] at hyz
        cases hyz
      | cons z zs =>
        rw [List.forall_mem_cons] at hx hy hz
        rw [totalOrderAll_cons, Ordering.isLE_then_iff_and] at *
        refine ⟨hS.trans hx.1 hy.1 hz.1 hxy.1 hyz.1, ?_⟩
        rcases hxy.2 with hlt | hxy'
        · exact .inl (hS.lt_of_lt_of_isLE hx.1 hy.1 hz.1 hlt hyz.1)
        · rcases hyz.2 with hlt | hyz'
          · exact .inl (hS.lt_of_isLE_of_lt hx.1 hy.1 hz.1 hxy.1 hlt)
          · exact .inr (ih hx.2 hy.2 hz.2 hxy' hyz')

end OrderOn

theorem rank_le_of_isLE {a b : Value} (h : (a.totalOrder b).isLE = true) : a.rank ≤ b.rank := by
  by_contra hlt
  rw [totalOrder_of_rank_ne (by omega), compare_gt_iff_gt.mpr (by omega)] at h
  cases h

theorem SameClass.number?_right {a b : Value} {x : Numeric} (h : SameClass a b)
    (ha : a.number? = some x) : ∃ y, b.number? = some y := by
  cases h with
  | number _ hb => exact ⟨_, hb⟩
  | unsorted ha' => cases a <;> cases ha <;> cases ha'
  | _ => cases ha

theorem SameClass.unsorted_right {a b : Value} (h : SameClass a b) (ha : a.sortClass? = none) :
    b.sortClass? = none := by
  cases h with
  | number ha' => cases a <;> cases ha' <;> cases ha
  | unsorted _ hb => exact hb
  | _ => cases ha

theorem orderOn_of_roundsApart {S : Value → Prop} (hround : RoundsApart S) (hitems : ItemClosed S)
    (n : Nat) : OrderOn fun v => S v ∧ sizeOf v ≤ n := by
  induction n with
  | zero =>
    have hsize : ∀ v : Value, ¬ sizeOf v ≤ 0 := fun v => by cases v <;> simp
    exact ⟨fun ha => absurd ha.2 (hsize _)⟩
  | succ n ih =>
    refine ⟨fun {a b c} ha hb hc hab hbc => ?_⟩
    have hle := rank_le_of_isLE hab
    have hle' := rank_le_of_isLE hbc
    -- classes decide unless all three values are of one
    rcases Nat.lt_or_eq_of_le (hle.trans hle') with hlt | heq
    · rw [totalOrder_of_rank_ne hlt.ne, compare_lt_iff_lt.mpr hlt]
      rfl
    have hmembers : ∀ {v : Value}, S v ∧ sizeOf v ≤ n + 1 →
        ∀ x ∈ v.members, S x ∧ sizeOf x ≤ n := by
      intro v hv x hx
      have hlt := sizeOf_lt_of_mem_members hx
      exact ⟨hitems v hv.1 x hx, by omega⟩
    have hclass : SameClass b c := rank_eq_iff.mp (by omega)
    cases rank_eq_iff.mp (show a.rank = b.rank by omega) with
    | number hx hy =>
      obtain ⟨z, hz⟩ := hclass.number?_right hy
      exact hround.number_trans ha.1 hb.1 hc.1 hx hy hz hab hbc
    | str s t =>
      cases hclass with
      | number hb' | unsorted hb' => cases hb'
      | str _ u =>
        rw [totalOrder] at *
        exact Std.TransOrd.isLE_trans (α := String) hab hbc
    | list xs ys =>
      cases hclass with
      | number hb' | unsorted hb' => cases hb'
      | list _ zs =>
        rw [totalOrder] at *
        exact ih.all_trans (hmembers ha) (hmembers hb) (hmembers hc) hab hbc
    | tuple xs ys =>
      cases hclass with
      | number hb' | unsorted hb' => cases hb'
      | tuple _ zs =>
        rw [totalOrder] at *
        exact ih.all_trans (hmembers ha) (hmembers hb) (hmembers hc) hab hbc
    | unsorted ha' hb' =>
      have hc' := hclass.unsorted_right hb'
      rw [totalOrder_of_sortClass? ha' hb'] at hab
      rw [totalOrder_of_sortClass? hb' hc'] at hbc
      rw [totalOrder_of_sortClass? ha' hc']
      exact Std.TransOrd.isLE_trans hab hbc

/-- Where no floating point number is the rounding of two integers, sorting has a total preorder. -/
theorem orderOn {S : Value → Prop} (hround : RoundsApart S) (hitems : ItemClosed S) :
    OrderOn S where
  trans {a b c} ha hb hc hab hbc := by
    have hn := orderOn_of_roundsApart hround hitems (sizeOf a + sizeOf b + sizeOf c)
    refine hn.trans ⟨ha, ?_⟩ ⟨hb, ?_⟩ ⟨hc, ?_⟩ hab hbc <;> omega

/-! ### Agreement with equality and order -/

/-- Zeros have one sign. -/
def ZerosAgree (S : Value → Prop) : Prop :=
  ∀ (a b : Value) (x y : Numeric), S a → S b → a.number? = some x → b.number? = some y →
    x.toFloat.isZero = true → y.toFloat.isZero = true → x.toFloat = y.toFloat

/-- Objects with one identity are of one type. -/
def TypesAgree (S : Value → Prop) : Prop :=
  ∀ (i : Nat) (t t' : String) (as as' : List (String × Value)) (es es' : List (Value × Value))
    (u u' : String), S (.object i t as es u) → S (.object i t' as' es' u') → t = t'

end Value

theorem Numeric.toFloat_of_equals {x y : Numeric} (h : x.equals y = true) :
    x.toFloat = y.toFloat ∨ x.toFloat.isZero = true ∧ y.toFloat.isZero = true := by
  have hrounded : ∀ {i : Int64} {x : Binary64}, x.toWord? = some i →
      Binary64.ofInt i.toInt = x ∨ (Binary64.ofInt i.toInt).isZero = true ∧ x.isZero = true := by
    intro i x h
    have hnan := Binary64.isNaN_of_toWord? h
    obtain ⟨hexact, -⟩ := Binary64.toWord?_eq_some_iff.mp h
    have hcompare := Binary64.compare_ofInt (Numeric.log2_toInt i) hnan
    rw [hexact, Std.compare_self, ite_self, ← hexact,
      Binary64.compare_exact (isNumber_ofInt i) hnan, compare_eq_iff_eq] at hcompare
    exact Binary64.eq_or_isZero_of_key hcompare
  cases x with
  | int i =>
    cases y with
    | int j => exact .inl (congrArg (fun k : Int64 => Binary64.ofInt k.toInt) (beq_iff_eq.mp h))
    | float y => exact hrounded (beq_iff_eq.mp h)
  | float x =>
    cases y with
    | int j => exact (hrounded (beq_iff_eq.mp h)).imp Eq.symm And.symm
    | float y => exact Binary64.eq_or_isZero_of_key (Binary64.equals_iff_key.mp h).2.2

namespace Value

theorem sortKey_of_number? {a : Value} {x : Numeric} (h : a.number? = some x) :
    a.sortKey = x.toFloat.totalKey := by
  rw [sortKey, asFloat?, h]
  rfl

theorem totalOrderAll_of_equals {xs ys : List Value}
    (hitems : ∀ x ∈ xs, ∀ y ∈ ys, x.equals y = true → x.totalOrder y = .eq)
    (h : equalsAll xs ys = true) : totalOrderAll xs ys = .eq := by
  rw [equalsAll_iff] at h
  induction h with
  | nil => rw [totalOrderAll]; rfl
  | cons hhead _ ih =>
    rw [totalOrderAll_cons, hitems _ List.mem_cons_self _ List.mem_cons_self hhead,
      Ordering.eq_then]
    exact ih fun x hx y hy => hitems x (List.mem_cons_of_mem _ hx) y (List.mem_cons_of_mem _ hy)

/-- Where zeros and objects agree, equal values are one for sorting. -/
theorem totalOrder_of_equals {S : Value → Prop} (hitems : ItemClosed S) (hzeros : ZerosAgree S)
    (htypes : TypesAgree S) {a b : Value} (ha : S a) (hb : S b) (h : a.equals b = true) :
    a.totalOrder b = .eq := by
  induction a using members_induction generalizing b with
  | step a ih =>
    have hall : ∀ x ∈ a.members, ∀ y ∈ b.members, x.equals y = true → x.totalOrder y = .eq :=
      fun x hx y hy hxy => ih x hx (hitems a ha x hx) (hitems b hb y hy) hxy
    cases equals_iff_alike.mp h with
    | number hx hy hxy =>
      rcases totalOrder_numbers hx hy with ⟨i, j, rfl, rfl⟩ | ⟨hab, -⟩
      · cases hx
        cases hy
        rw [totalOrder_int, beq_iff_eq.mp hxy, Std.compare_self]
      · have hkey : a.sortKey = b.sortKey := by
          rw [sortKey_of_number? hx, sortKey_of_number? hy]
          rcases Numeric.toFloat_of_equals hxy with heq | ⟨hx', hy'⟩
          · rw [heq]
          · rw [hzeros a b _ _ ha hb hx hy hx' hy']
        rw [hab, hkey, Std.compare_self]
    | str s =>
      rw [totalOrder]
      exact Std.compare_self (α := String)
    | list hxy | tuple hxy =>
      rw [totalOrder]
      exact totalOrderAll_of_equals hall hxy
    | object =>
      rw [totalOrder_of_sortClass? rfl rfl, typeName, typeName, htypes _ _ _ _ _ _ _ _ _ ha hb]
      exact Std.compare_self
    | nil | set | dict | builtin _ | method | host =>
      rw [totalOrder_of_sortClass? rfl rfl]
      exact Std.compare_self

theorem totalKey_lt_of_order? {x y : Binary64} (h : x.order? y = some .lt) :
    x.totalKey < y.totalKey := by
  have hkey : x.key < y.key := by
    unfold Binary64.order? at h
    split at h
    · cases h
    · exact compare_lt_iff_lt.mp (Option.some_inj.mp h)
  unfold Binary64.key at hkey
  unfold Binary64.totalKey
  split at hkey <;> split at hkey <;> simp_all <;> omega

theorem totalOrder_of_numberOrder {a b : Value} {x y : Numeric} (hx : a.number? = some x)
    (hy : b.number? = some y) (h : x.order? y = some .lt) : a.totalOrder b = .lt := by
  have hkeys : x.toFloat.order? y.toFloat = some .lt → a.totalOrder b = .lt := by
    intro h
    refine totalOrder_eq_lt_of_sortKey hx hy ?_
    rw [sortKey_of_number? hx, sortKey_of_number? hy]
    exact totalKey_lt_of_order? h
  cases x with
  | float x => exact hkeys h
  | int i =>
    cases y with
    | float y => exact hkeys h
    | int j => exact totalOrder_eq_lt_of_lt hx hy (Std.compare_eq_lt.mp (Option.some_inj.mp h))

theorem totalOrderAll_of_order? {op : String} {xs ys : List Value}
    (heq : ∀ x ∈ xs, ∀ y ∈ ys, x.equals y = true → x.totalOrder y = .eq)
    (hlt : ∀ x ∈ xs, ∀ y ∈ ys, x.order? op y = .ok (some .lt) → x.totalOrder y = .lt)
    (h : orderAll? op xs ys = .ok (some .lt)) : totalOrderAll xs ys = .lt := by
  induction xs generalizing ys with
  | nil =>
    rw [orderAll?] at h
    rw [totalOrderAll]
    simpa using h
  | cons x xs ih =>
    cases ys with
    | nil =>
      rw [orderAll?] at h
      rw [totalOrderAll]
      simpa using h
    | cons y ys =>
      rw [orderAll?] at h
      rw [totalOrderAll_cons]
      split at h
      · next hxy =>
        rw [heq x List.mem_cons_self y List.mem_cons_self hxy, Ordering.eq_then]
        exact ih (fun x hx y hy => heq x (List.mem_cons_of_mem _ hx) y (List.mem_cons_of_mem _ hy))
          (fun x hx y hy => hlt x (List.mem_cons_of_mem _ hx) y (List.mem_cons_of_mem _ hy)) h
      · rw [hlt x List.mem_cons_self y List.mem_cons_self h, Ordering.lt_then]

/-- What is less than another value is sorted in front of it. -/
theorem totalOrder_of_order? {S : Value → Prop} (hitems : ItemClosed S) (hzeros : ZerosAgree S)
    (htypes : TypesAgree S) {op : String} {a b : Value} (ha : ∀ x ∈ a.members, S x)
    (hb : ∀ y ∈ b.members, S y) (h : a.order? op b = .ok (some .lt)) : a.totalOrder b = .lt := by
  induction a using members_induction generalizing b with
  | step a ih =>
    have heq : ∀ x ∈ a.members, ∀ y ∈ b.members, x.equals y = true → x.totalOrder y = .eq :=
      fun x hx y hy => totalOrder_of_equals hitems hzeros htypes (ha x hx) (hb y hy)
    have hlt : ∀ x ∈ a.members, ∀ y ∈ b.members, x.order? op y = .ok (some .lt) →
        x.totalOrder y = .lt :=
      fun x hx y hy => ih x hx (hitems x (ha x hx)) (hitems y (hb y hy))
    rw [order?.eq_def] at h
    split at h
    · rw [totalOrder]
      exact Option.some_inj.mp (Except.ok.inj h)
    · rw [totalOrder]
      exact totalOrderAll_of_order? heq hlt h
    · rw [totalOrder]
      exact totalOrderAll_of_order? heq hlt h
    · split at h
      · next hx hy => exact totalOrder_of_numberOrder hx hy (Except.ok.inj h)
      · cases h

end Value

end TemplateEngine
