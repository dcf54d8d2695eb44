import TemplateEngine.Function.Filter
import TemplateEngine.Proofs.Except
import TemplateEngine.Proofs.Value.Order

/-!
# Sorting

What the built-in function and the filter make of a list (`sort_spec`).  They refuse items that are
not of one class, all numbers, all strings, all lists or all tuples.  Items of one class on which
the order of sorting is transitive (`OrderOn`) are sorted: there is one list with the same items in
order in which ties stay as they are (`IsStableSort`), and that list is the result.  Nothing is said
of items on which that order is not transitive.

Insertion keeps a row in order (`OrderOn.descends_insert`) and puts an item in front of those that
it ties with (`OrderOn.ties_insert`).  The order of sorting is transitive on numbers exactly if no
floating point number among them is what two integers are rounded to
(`orderOn_iff_of_sortClass?`).  What `<` calls less is sorted in front (`totalOrder_of_order?`)
where the items of sequences tie when they are equal (`EqualsTie`).
-/

namespace TemplateEngine

namespace Value

/-! ### Insertion -/

theorem insertDescending_perm (x : Value) (ys : List Value) :
    (insertDescending x ys).Perm (x :: ys) := by
  induction ys with
  | nil => exact .refl _
  | cons y ys ih =>
    rw [insertDescending]
    split
    · exact (ih.cons y).trans (.swap x y ys)
    · exact .refl _

theorem foldl_insertDescending_perm (xs ys : List Value) :
    (xs.foldl (fun sorted x => insertDescending x sorted) ys).Perm (xs ++ ys) := by
  induction xs generalizing ys with
  | nil => exact .refl _
  | cons x xs ih =>
    have hinsert : (xs ++ insertDescending x ys).Perm (xs ++ x :: ys) :=
      (insertDescending_perm x ys).append_left xs
    exact ((ih _).trans hinsert).trans List.perm_middle

/-- Later values are sorted before or with earlier ones. -/
def Descends (ys : List Value) : Prop := ys.Pairwise fun a b => (b.totalOrder a).isLE = true

theorem OrderOn.descends_insert {S : Value → Prop} (hS : OrderOn S) {x : Value} {ys : List Value}
    (hx : S x) (hy : ∀ y ∈ ys, S y) (h : Descends ys) : Descends (insertDescending x ys) := by
  induction ys with
  | nil => exact List.pairwise_singleton _ _
  | cons y ys ih =>
    rw [List.forall_mem_cons] at hy
    obtain ⟨hhead, htail⟩ := List.pairwise_cons.mp h
    rw [insertDescending]
    split
    · next hlt =>
      -- `x` is less than `y` and goes in behind it
      refine List.pairwise_cons.mpr ⟨fun z hz => ?_, ih hy.2 htail⟩
      rcases List.mem_cons.mp ((insertDescending_perm x ys).mem_iff.mp hz) with rfl | hz
      · rw [hlt]
        rfl
      · exact hhead z hz
    · next hnot =>
      have hyx : (y.totalOrder x).isLE = true := isLE_totalOrder_iff.mpr hnot
      refine List.pairwise_cons.mpr ⟨fun z hz => ?_, h⟩
      rcases List.mem_cons.mp hz with rfl | hz
      · exact hyx
      · exact hS.trans (hy.2 z hz) hy.1 hx (hhead z hz) hyx

theorem OrderOn.descends_foldl {S : Value → Prop} (hS : OrderOn S) {xs ys : List Value}
    (hx : ∀ x ∈ xs, S x) (hy : ∀ y ∈ ys, S y) (h : Descends ys) :
    Descends (xs.foldl (fun sorted x => insertDescending x sorted) ys) := by
  induction xs generalizing ys with
  | nil => exact h
  | cons x xs ih =>
    rw [List.forall_mem_cons] at hx
    refine ih hx.2 (fun y hmem => ?_) (hS.descends_insert hx.1 hy h)
    rcases List.mem_cons.mp ((insertDescending_perm x ys).mem_iff.mp hmem) with rfl | hmem
    · exact hx.1
    · exact hy y hmem

/-! ### Ties -/

theorem totalOrder_self (a : Value) : a.totalOrder a = .eq := by
  have hswap := totalOrder_swap a a
  cases h : a.totalOrder a with
  | eq => rfl
  | lt | gt =>
    rw [h] at hswap
    cases hswap

/-- The items that tie with `v` in the order of sorting. -/
def ties (v : Value) (xs : List Value) : List Value := xs.filter fun x => x.totalOrder v == .eq

theorem mem_ties {v x : Value} {xs : List Value} :
    x ∈ ties v xs ↔ x ∈ xs ∧ x.totalOrder v = .eq := by
  rw [ties, List.mem_filter, beq_iff_eq]

theorem ties_append (v : Value) (xs ys : List Value) : ties v (xs ++ ys) = ties v xs ++ ties v ys :=
  List.filter_append xs ys

theorem ties_cons_of_eq {v x : Value} (h : x.totalOrder v = .eq) (xs : List Value) :
    ties v (x :: xs) = x :: ties v xs :=
  List.filter_cons_of_pos (beq_iff_eq.mpr h)

theorem ties_cons_of_ne {v x : Value} (h : x.totalOrder v ≠ .eq) (xs : List Value) :
    ties v (x :: xs) = ties v xs :=
  List.filter_cons_of_neg (mt beq_iff_eq.mp h)

/-- An item goes in front of those that it ties with. -/
theorem OrderOn.ties_insert {S : Value → Prop} (hS : OrderOn S) {v x : Value} {ys : List Value}
    (hv : S v) (hx : S x) (hy : ∀ y ∈ ys, S y) :
    ties v (insertDescending x ys) = ties v (x :: ys) := by
  induction ys with
  | nil => rfl
  | cons y ys ih =>
    rw [List.forall_mem_cons] at hy
    rw [insertDescending]
    split
    · next hlt =>
      -- `x` goes past `y`, so that not both tie with `v`
      by_cases hyv : y.totalOrder v = .eq
      · have hxv : x.totalOrder v = .lt :=
          hS.lt_of_lt_of_isLE hx hy.1 hv hlt (by rw [hyv]; rfl)
        have hne : x.totalOrder v ≠ .eq := by
          rw [hxv]
          decide
        rw [ties_cons_of_eq hyv, ih hy.2, ties_cons_of_ne hne, ties_cons_of_ne hne,
          ties_cons_of_eq hyv]
      · rw [ties_cons_of_ne hyv, ih hy.2]
        by_cases hxv : x.totalOrder v = .eq
        · rw [ties_cons_of_eq hxv, ties_cons_of_eq hxv, ties_cons_of_ne hyv]
        · rw [ties_cons_of_ne hxv, ties_cons_of_ne hxv, ties_cons_of_ne hyv]
    · rfl

theorem OrderOn.ties_foldl {S : Value → Prop} (hS : OrderOn S) {v : Value} {xs ys : List Value}
    (hv : S v) (hx : ∀ x ∈ xs, S x) (hy : ∀ y ∈ ys, S y) :
    ties v (xs.foldl (fun sorted x => insertDescending x sorted) ys) =
      ties v (xs.reverse ++ ys) := by
  induction xs generalizing ys with
  | nil => rfl
  | cons x xs ih =>
    rw [List.forall_mem_cons] at hx
    have hinsert : ∀ y ∈ insertDescending x ys, S y := by
      intro y hmem
      rcases List.mem_cons.mp ((insertDescending_perm x ys).mem_iff.mp hmem) with rfl | hmem
      · exact hx.1
      · exact hy y hmem
    calc ties v (xs.foldl (fun sorted x => insertDescending x sorted) (insertDescending x ys))
      _ = ties v xs.reverse ++ ties v (insertDescending x ys) := by
        rw [ih hx.2 hinsert, ties_append]
      _ = ties v xs.reverse ++ ties v (x :: ys) := by rw [hS.ties_insert hv hx.1 hy]
      _ = ties v ((x :: xs).reverse ++ ys) := by
        rw [← ties_append, List.reverse_cons, List.append_assoc, List.singleton_append]

/-! ### Sorted lists -/

/-- No item is less than an earlier one in the order of sorting. -/
def Ascends (xs : List Value) : Prop := xs.Pairwise fun a b => (a.totalOrder b).isLE = true

/-- The items of `xs` in the order of sorting, with ties as they are in `xs`. -/
structure IsStableSort (xs ys : List Value) : Prop where
  perm : ys.Perm xs
  ascends : Ascends ys
  stable {v : Value} (hv : v ∈ xs) : ties v ys = ties v xs

theorem Ascends.isLE_of_mem {x y : Value} {xs : List Value} (h : Ascends (x :: xs))
    (hy : y ∈ x :: xs) : (x.totalOrder y).isLE = true := by
  rcases List.mem_cons.mp hy with rfl | hy
  · rw [totalOrder_self]
    rfl
  · exact (List.pairwise_cons.mp h).1 y hy

theorem mem_of_ties {v : Value} {xs ys : List Value} (hv : v ∈ xs) (h : ties v xs = ties v ys) :
    v ∈ ys := by
  have hties : v ∈ ties v xs := mem_ties.mpr ⟨hv, totalOrder_self v⟩
  rw [h] at hties
  exact (mem_ties.mp hties).1

theorem ties_of_cons {v x : Value} {xs ys : List Value} (h : ties v (x :: xs) = ties v (x :: ys)) :
    ties v xs = ties v ys := by
  by_cases hxv : x.totalOrder v = .eq
  · rw [ties_cons_of_eq hxv, ties_cons_of_eq hxv] at h
    exact (List.cons.inj h).2
  · rwa [ties_cons_of_ne hxv, ties_cons_of_ne hxv] at h

/-- Each list has the head of the other, so the heads tie. -/
theorem Ascends.heads_tie {x y : Value} {xs ys : List Value} (hxs : Ascends (x :: xs))
    (hys : Ascends (y :: ys)) (hx : x ∈ y :: ys) (hy : y ∈ x :: xs) : y.totalOrder x = .eq := by
  have hle := hys.isLE_of_mem hx
  have hge := isLE_totalOrder_iff.mp (hxs.isLE_of_mem hy)
  cases h : y.totalOrder x with
  | eq => rfl
  | lt => exact absurd h hge
  | gt =>
    rw [h] at hle
    cases hle

/-- A list in order is determined by its ties: the first item to tie with the head is the head. -/
theorem Ascends.eq_of_ties {xs ys : List Value} (hxs : Ascends xs) (hys : Ascends ys)
    (h : ∀ v, v ∈ xs ∨ v ∈ ys → ties v xs = ties v ys) : xs = ys := by
  induction xs generalizing ys with
  | nil =>
    cases ys with
    | nil => rfl
    | cons y ys => cases mem_of_ties List.mem_cons_self (h y (.inr List.mem_cons_self)).symm
  | cons x xs ih =>
    have hx := mem_of_ties List.mem_cons_self (h x (.inl List.mem_cons_self))
    cases ys with
    | nil => cases hx
    | cons y ys =>
      have hy := mem_of_ties List.mem_cons_self (h y (.inr List.mem_cons_self)).symm
      have hheads := h x (.inl List.mem_cons_self)
      rw [ties_cons_of_eq (totalOrder_self x), ties_cons_of_eq (hxs.heads_tie hys hx hy)] at hheads
      obtain ⟨rfl, -⟩ := List.cons.inj hheads
      have htails : xs = ys :=
        ih (List.pairwise_cons.mp hxs).2 (List.pairwise_cons.mp hys).2 fun v hv =>
          ties_of_cons (h v (hv.imp (List.mem_cons_of_mem x) (List.mem_cons_of_mem x)))
      rw [htails]

theorem IsStableSort.unique {xs ys zs : List Value} (hy : IsStableSort xs ys)
    (hz : IsStableSort xs zs) : ys = zs := by
  refine hy.ascends.eq_of_ties hz.ascends fun v hv => ?_
  have hmem : v ∈ xs := hv.elim hy.perm.mem_iff.mp hz.perm.mem_iff.mp
  rw [hy.stable hmem, hz.stable hmem]

/-! ### Admission -/

theorem forM_eq_ok_iff {ε α : Type} {f : α → Except ε Unit} {xs : List α} :
    xs.forM f = .ok () ↔ ∀ x ∈ xs, f x = .ok () := by
  induction xs with
  | nil => simp [pure, Except.pure]
  | cons x xs ih =>
    rw [List.forM_eq_forM] at *
    rw [List.forM_cons, bind_eq_ok_iff, List.forall_mem_cons, ← ih]
    exact ⟨fun ⟨_, h⟩ => h, fun h => ⟨(), h⟩⟩

theorem exists_of_forM_eq_error {ε α : Type} {f : α → Except ε Unit} {xs : List α} {e : ε}
    (h : xs.forM f = .error e) : ∃ x ∈ xs, f x = .error e := by
  induction xs with
  | nil => cases h
  | cons x xs ih =>
    rw [List.forM_eq_forM, List.forM_cons] at h
    cases hx : f x with
    | error e' =>
      rw [hx] at h
      cases h
      exact ⟨x, List.mem_cons_self, hx⟩
    | ok u =>
      rw [hx] at h
      obtain ⟨y, hy, he⟩ := ih h
      exact ⟨y, List.mem_cons_of_mem x hy, he⟩

/-- A list is sorted when its items are all numbers, all strings, all lists or all tuples. -/
theorem checkComparable_eq_ok_iff {xs : List Value} :
    checkComparable xs = .ok () ↔ ∃ c, ∀ x ∈ xs, x.sortClass? = some c := by
  cases xs with
  | nil => exact iff_of_true rfl ⟨0, by simp⟩
  | cons first rest =>
    have hitem : ∀ x : Value, (if x.sortClass?.isSome && x.sortClass? == first.sortClass?
        then .ok () else notOrdered "<" first x : Except Error Unit) = .ok () ↔
          x.sortClass?.isSome = true ∧ x.sortClass? = first.sortClass? := by
      intro x
      split
      · next h => simpa using h
      · next h => exact iff_of_false nofun (by simpa using h)
    rw [checkComparable, forM_eq_ok_iff, forall₂_congr fun x _ => hitem x]
    constructor
    · intro h
      obtain ⟨c, hc⟩ := Option.isSome_iff_exists.mp (h first List.mem_cons_self).1
      exact ⟨c, fun x hx => (h x hx).2.trans hc⟩
    · rintro ⟨c, hc⟩ x hx
      rw [hc x hx, hc first List.mem_cons_self]
      exact ⟨rfl, rfl⟩

theorem sort_eq_ok_iff {xs ys : List Value} :
    sort xs = .ok ys ↔ checkComparable xs = .ok () ∧
      (xs.foldl (fun sorted x => insertDescending x sorted) []).reverse = ys := by
  unfold sort
  rw [bind_eq_ok_iff]
  constructor
  · rintro ⟨_, hcheck, h⟩
    exact ⟨hcheck, Except.ok.inj h⟩
  · rintro ⟨hcheck, rfl⟩
    exact ⟨(), hcheck, rfl⟩

theorem sortClass?_of_number? {a : Value} {x : Numeric} (h : a.number? = some x) :
    a.sortClass? = some 0 := by
  cases a <;> cases h <;> rfl

/-- Values that `<` compares are of one class. -/
theorem sortClass?_of_order? {op : String} {a b : Value} {o : Option Ordering}
    (h : a.order? op b = .ok o) : ∃ c, a.sortClass? = some c ∧ b.sortClass? = some c := by
  rw [order?.eq_def] at h
  split at h
  · exact ⟨1, rfl, rfl⟩
  · exact ⟨2, rfl, rfl⟩
  · exact ⟨3, rfl, rfl⟩
  · split at h
    · next hx hy => exact ⟨0, sortClass?_of_number? hx, sortClass?_of_number? hy⟩
    · cases h

/-- Numbers and strings are compared with values of their class. -/
theorem order?_of_sortClass? {a b : Value} {c : Nat} (ha : a.sortClass? = some c)
    (hb : b.sortClass? = some c) (hc : c < 2) (op : String) : ∃ o, a.order? op b = .ok o := by
  cases a <;> cases ha <;> cases b <;> cases hb <;>
    first
      | exact absurd hc (by decide)
      | exact ⟨_, order?_of_number? rfl rfl op⟩
      | exact ⟨_, by rw [order?]⟩

/-- All items are of one class. -/
def OneClass (xs : List Value) : Prop := ∃ c, ∀ x ∈ xs, x.sortClass? = some c

/-- Two items of one class are enough for the class of all. -/
theorem oneClass_of_order? {xs : List Value} (hlen : 2 ≤ xs.length)
    (h : xs.Pairwise fun x y => (x.order? "<" y).isOk = true) : OneClass xs := by
  cases xs with
  | nil => cases hlen
  | cons first rest =>
    obtain ⟨hfirst, -⟩ := List.pairwise_cons.mp h
    have hclass : ∀ y ∈ rest, ∃ c, first.sortClass? = some c ∧ y.sortClass? = some c := by
      intro y hy
      obtain ⟨o, ho⟩ := exists_of_isOk (hfirst y hy)
      exact sortClass?_of_order? ho
    obtain ⟨second, hsecond⟩ := List.exists_mem_of_length_pos (Nat.succ_le_succ_iff.mp hlen)
    obtain ⟨c, hc, -⟩ := hclass second hsecond
    refine ⟨c, List.forall_mem_cons.mpr ⟨hc, fun y hy => ?_⟩⟩
    obtain ⟨d, hd, hy'⟩ := hclass y hy
    rw [hy', ← hd, hc]

/-- The refusal names two items. -/
theorem sort_of_not_oneClass {xs : List Value} (h : ¬ OneClass xs) :
    ∃ x ∈ xs, ∃ y ∈ xs, sort xs = notOrdered "<" x y := by
  cases hcheck : checkComparable xs with
  | ok u => exact absurd (checkComparable_eq_ok_iff.mp hcheck) h
  | error e =>
    have hsort : sort xs = .error e := by
      rw [sort, hcheck]
      rfl
    rw [hsort]
    cases xs with
    | nil => cases hcheck
    | cons first rest =>
      obtain ⟨y, hy, he⟩ := exists_of_forM_eq_error hcheck
      refine ⟨first, List.mem_cons_self, y, hy, ?_⟩
      split at he
      · cases he
      · rw [notOrdered, fail] at he ⊢
        cases he
        rfl

theorem isStableSort_of_sort {xs ys : List Value} (hS : OrderOn (· ∈ xs)) (h : sort xs = .ok ys) :
    IsStableSort xs ys := by
  obtain ⟨-, rfl⟩ := sort_eq_ok_iff.mp h
  have hitems : ∀ x ∈ xs, x ∈ xs := fun _ hx => hx
  have hnone : ∀ y ∈ ([] : List Value), y ∈ xs := by simp
  refine ⟨?_, ?_, fun {v} hv => ?_⟩
  · exact (List.reverse_perm _).trans (by simpa using foldl_insertDescending_perm xs [])
  · exact List.pairwise_reverse.mpr (hS.descends_foldl hitems hnone .nil)
  · have hties := hS.ties_foldl hv hitems hnone
    rw [List.append_nil] at hties
    rw [ties, List.filter_reverse, ← ties, hties, ties, List.filter_reverse, List.reverse_reverse,
      ties]

/-! ### Where the order is transitive -/

/-- The value is reached through lists and tuples. -/
inductive Inside (v : Value) : Value → Prop where
  | self : Inside v v
  | member {a x : Value} (hx : x ∈ a.members) (h : Inside v x) : Inside v a

/-- What makes the items of sequences tie when they are equal. -/
structure EqualsTie (xs : List Value) : Prop where
  /-- In lists and tuples zeros have one sign. -/
  zeros : ZerosAgree fun v => ∃ x ∈ xs, ∃ y ∈ x.members, Inside v y
  /-- In lists and tuples objects with one identity are of one type. -/
  types : TypesAgree fun v => ∃ x ∈ xs, ∃ y ∈ x.members, Inside v y

theorem inside_list {v : Value} {xs : List Value} :
    Inside v (.list xs) ↔ v = .list xs ∨ ∃ x ∈ xs, Inside v x := by
  constructor
  · intro h
    cases h with
    | self => exact .inl rfl
    | member hx h => exact .inr ⟨_, hx, h⟩
  · rintro (rfl | ⟨x, hx, h⟩)
    · exact .self
    · exact .member hx h

theorem inside_atom {v a : Value} (ha : a.members = []) : Inside v a ↔ v = a := by
  constructor
  · intro h
    cases h with
    | self => rfl
    | member hx =>
      rw [ha] at hx
      cases hx
  · rintro rfl
    exact .self

theorem Inside.members {a v : Value} (h : Inside v a) : ∀ x ∈ v.members, Inside x a := by
  induction h with
  | self => exact fun x hx => .member hx .self
  | member hmem _ ih => exact fun x hx => .member hmem (ih x hx)

/-- Integers, truth values and floating point numbers have no items. -/
theorem members_of_number {a : Value} (h : a.sortClass? = some 0) : a.members = [] := by
  cases a <;> cases h <;> rfl

/-- Two integers that are rounded to one number tie with it, and not with one another. -/
theorem OrderOn.roundsApart {S : Value → Prop} (hS : OrderOn S) : RoundsApart S := by
  have htie : ∀ {i : Int64} {x : Binary64}, Binary64.ofInt i.toInt = x →
      (Value.int i).totalOrder (.float x) = .eq ∧ (Value.float x).totalOrder (.int i) = .eq := by
    rintro i x rfl
    rw [totalOrder_of_number? rfl rfl (by simp), totalOrder_of_number? rfl rfl (by simp)]
    exact ⟨Std.compare_self, Std.compare_self⟩
  have hle : ∀ {i j : Int64} {x : Binary64}, S (.int i) → S (.int j) → S (.float x) →
      Binary64.ofInt i.toInt = x → Binary64.ofInt j.toInt = x → i ≤ j := by
    intro i j x hi hj hx hix hjx
    have h := hS.trans hi hx hj (by rw [(htie hix).1]; rfl) (by rw [(htie hjx).2]; rfl)
    rwa [totalOrder_int, Std.isLE_compare] at h
  intro i j x hi hj hx hix hjx
  exact Int64.le_antisymm (hle hi hj hx hix hjx) (hle hj hi hx hjx hix)

theorem orderOn_items {xs : List Value} (h : RoundsApart fun v => ∃ x ∈ xs, Inside v x) :
    OrderOn (· ∈ xs) := by
  have hclosed : ItemClosed fun v => ∃ x ∈ xs, Inside v x :=
    fun v ⟨x, hx, h⟩ y hy => ⟨x, hx, h.members y hy⟩
  have hin : ∀ {v : Value}, v ∈ xs → ∃ x ∈ xs, Inside v x := fun hv => ⟨_, hv, .self⟩
  exact ⟨fun ha hb hc => (orderOn h hclosed).trans (hin ha) (hin hb) (hin hc)⟩

/-- Numbers are in a transitive order exactly if they round apart. -/
theorem orderOn_iff_of_sortClass? {xs : List Value} (h : ∀ x ∈ xs, x.sortClass? = some 0) :
    OrderOn (· ∈ xs) ↔ RoundsApart (· ∈ xs) := by
  refine ⟨OrderOn.roundsApart, fun hround => orderOn hround fun a ha x hx => ?_⟩
  rw [members_of_number (h a ha)] at hx
  cases hx

/-! ### The sorted list -/

theorem IsStableSort.pairwise {xs ys : List Value} (h : IsStableSort xs ys) (htie : EqualsTie xs) :
    ys.Pairwise fun a b => b.order? "<" a ≠ .ok (some .lt) := by
  have hclosed : ItemClosed fun v => ∃ x ∈ xs, ∃ y ∈ x.members, Inside v y :=
    fun v ⟨x, hx, y, hy, h⟩ z hz => ⟨x, hx, y, hy, h.members z hz⟩
  have hmembers : ∀ v ∈ ys, ∀ y ∈ v.members, ∃ x ∈ xs, ∃ y' ∈ x.members, Inside y y' :=
    fun v hv y hy => ⟨v, h.perm.mem_iff.mp hv, y, hy, .self⟩
  refine h.ascends.imp_of_mem fun {a b} ha hb hle hlt => ?_
  exact isLE_totalOrder_iff.mp hle (totalOrder_of_order? hclosed htie.zeros htie.types
    (hmembers b hb) (hmembers a ha) hlt)

theorem apply_sorted (xs : List Value) :
    Builtin.sorted.apply [.list xs] = (sort xs).map .list := by
  change (sort xs >>= fun ys => .ok (Value.list ys)) = _
  cases sort xs <;> rfl

/-- The built-in function and the filter sort alike.  Items of several classes are refused; two
items that `<` compares are of one class, and `<` compares numbers with numbers and strings with
strings.  Items of one class with a transitive order are sorted, ties stay as they are, and where
equal items of sequences tie, no later item is less than an earlier one.  The order is transitive
unless integers are rounded alike. -/
theorem sort_spec (xs : List Value) :
    Builtin.sorted.apply [.list xs] = (sort xs).map .list ∧
    (∃ f, FilterTable.get? Filter.standard "sort" = some f ∧
      ∀ args, f (.list xs) args = (sort xs).map .list) ∧
    (¬ OneClass xs → ∃ x ∈ xs, ∃ y ∈ xs, sort xs = notOrdered "<" x y) ∧
    (2 ≤ xs.length → (xs.Pairwise fun x y => (x.order? "<" y).isOk = true) → OneClass xs) ∧
    (∀ c < 2, (∀ x ∈ xs, x.sortClass? = some c) →
      ∀ x ∈ xs, ∀ y ∈ xs, (x.order? "<" y).isOk = true) ∧
    (OneClass xs → OrderOn (· ∈ xs) → ∃ ys, sort xs = .ok ys ∧
      (∀ zs, IsStableSort xs zs ↔ zs = ys) ∧
      (EqualsTie xs → ys.Pairwise fun a b => b.order? "<" a ≠ .ok (some .lt))) ∧
    ((RoundsApart fun v => ∃ x ∈ xs, Inside v x) → OrderOn (· ∈ xs)) ∧
    ((∀ x ∈ xs, x.sortClass? = some 0) → (OrderOn (· ∈ xs) ↔ RoundsApart (· ∈ xs))) := by
  refine ⟨apply_sorted xs, ⟨_, rfl, fun _ => apply_sorted xs⟩, sort_of_not_oneClass,
    oneClass_of_order?, ?_, ?_, orderOn_items, orderOn_iff_of_sortClass?⟩
  · intro c hc hclass x hx y hy
    obtain ⟨o, ho⟩ := order?_of_sortClass? (hclass x hx) (hclass y hy) hc "<"
    rw [ho]
    rfl
  · intro hclass hS
    have hsort := sort_eq_ok_iff.mpr ⟨checkComparable_eq_ok_iff.mpr hclass, rfl⟩
    have hstable := isStableSort_of_sort hS hsort
    refine ⟨_, hsort, fun zs => ⟨fun hz => hz.unique hstable, ?_⟩, hstable.pairwise⟩
    rintro rfl
    exact hstable

/-- Lists are sorted by their items: two ties with itself in both types, so the strings decide. -/
theorem sort_spec_lists :
    ∃ ys, sort [.list [.float ⟨0x4000000000000000⟩, .str "b"], .list [.int 2, .str "a"]] = .ok ys ∧
      IsStableSort [.list [.float ⟨0x4000000000000000⟩, .str "b"], .list [.int 2, .str "a"]] ys ∧
      ys.Pairwise fun a b => b.order? "<" a ≠ .ok (some .lt) := by
  obtain ⟨-, -, -, -, -, hsorted, horder, -⟩ :=
    sort_spec [.list [.float ⟨0x4000000000000000⟩, .str "b"], .list [.int 2, .str "a"]]
  have hint := fun v i => inside_atom (v := v) (a := .int i) rfl
  have hfloat := fun v x => inside_atom (v := v) (a := .float x) rfl
  have hstr := fun v s => inside_atom (v := v) (a := .str s) rfl
  have hS : OrderOn
      (· ∈ [.list [.float ⟨0x4000000000000000⟩, .str "b"], .list [.int 2, .str "a"]]) := by
    refine horder fun i j x hi hj _ _ _ => ?_
    simp [inside_list, hint, hfloat, hstr] at hi hj
    rw [hi, hj]
  obtain ⟨ys, hys, hunique, hpairwise⟩ := hsorted ⟨2, by simp [sortClass?]⟩ hS
  refine ⟨ys, hys, (hunique ys).mpr rfl, hpairwise ⟨?_, ?_⟩⟩
  · intro a b x y ha _ hx _ hzero _
    simp [members, hint, hfloat, hstr] at ha
    rcases ha with (rfl | rfl) | (rfl | rfl) <;> cases hx <;> exact absurd hzero (by decide +kernel)
  · intro i t t' as as' es es' u u' h
    simp [members, hint, hfloat, hstr] at h

/-- An item without a class is not sorted even on its own, items of sequences need not be
comparable, and equal zeros may keep lists from being in order.  Integers that are rounded alike tie
with one number and not with one another: their order is not transitive, and the greater one may
stay in front. -/
theorem not_sort_spec :
    ((sort [.nil]).isOk = false ∧
      [Value.nil].Pairwise fun x y => (x.order? "<" y).isOk = true ∧ (y.order? "<" x).isOk = true) ∧
    ((sort [.list [.nil], .list [.int 0]]).isOk = true ∧
      ((Value.list [.nil]).order? "<" (.list [.int 0])).isOk = false) ∧
    (sort [.list [.float (.zero true), .int 2], .list [.float (.zero false), .int 1]] =
        .ok [.list [.float (.zero true), .int 2], .list [.float (.zero false), .int 1]] ∧
      (Value.list [.float (.zero false), .int 1]).order? "<"
        (.list [.float (.zero true), .int 2]) = .ok (some .lt)) ∧
    (¬ OrderOn (· ∈ [.int 9007199254740993, .float ⟨0x4340000000000000⟩, .int 9007199254740992]) ∧
      sort [.int 9007199254740993, .float ⟨0x4340000000000000⟩, .int 9007199254740992] =
        .ok [.int 9007199254740993, .float ⟨0x4340000000000000⟩, .int 9007199254740992] ∧
      (Value.int 9007199254740992).order? "<" (.int 9007199254740993) = .ok (some .lt)) := by
  refine ⟨⟨rfl, List.pairwise_singleton _ _⟩, ⟨rfl, ?_⟩, ⟨?_, ?_⟩, ⟨?_, ?_, ?_⟩⟩
  · simp [order?, orderAll?, equals, equalsNumber, number?, notOrdered, fail]
    rfl
  · have hlt : (Value.list [.float (.zero false), .int 1]).totalOrder
        (.list [.float (.zero true), .int 2]) = .gt := by
      rw [totalOrder, totalOrderAll_cons, totalOrder_of_number? rfl rfl (by simp)]
      decide +kernel
    refine sort_eq_ok_iff.mpr ⟨rfl, ?_⟩
    simp [insertDescending, hlt]
  · have hzeros : Value.equals (.float (.zero false)) (.float (.zero true)) = true := by
      rw [equals_of_number? rfl rfl]
      decide +kernel
    have hne : Value.equals (.int 1) (.int 2) = false := by
      rw [equals_of_number? rfl rfl]
      decide
    simp [order?, orderAll?, hzeros, hne, number?]
    rfl
  · intro hS
    have heq : (9007199254740993 : Int64) = 9007199254740992 :=
      hS.roundsApart _ _ ⟨0x4340000000000000⟩ (by simp) (by simp) (by simp) (by decide +kernel)
        (by decide +kernel)
    exact absurd heq (by decide)
  · have hrounded :
        (Value.float ⟨0x4340000000000000⟩).totalOrder (.int 9007199254740993) = .eq ∧
          (Value.int 9007199254740992).totalOrder (.float ⟨0x4340000000000000⟩) = .eq := by
      rw [totalOrder_of_number? rfl rfl (by simp), totalOrder_of_number? rfl rfl (by simp)]
      decide +kernel
    refine sort_eq_ok_iff.mpr ⟨rfl, ?_⟩
    simp [insertDescending, hrounded]
  · rw [order?_of_number? rfl rfl]
    rfl

end Value

end TemplateEngine
