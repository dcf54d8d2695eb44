import Mathlib.Data.List.Perm.Subperm
import TemplateEngine.Proofs.Value.Numbers

/-!
# Equality of values

What sets and dicts rely on (`equality_contract`): equality is symmetric and transitive, a value
equals itself unless a NaN is reached from it, and equal values are hashed alike.

The order of sets and dicts does not count, so symmetry needs that no two items of a set and no two
keys of a dict are equal (`IsDistinct`): of two sets of one size, where each item of the first
equals one of the second, no two equal the same, and hence all of the second are met
(`exists_of_length_eq`).  That no two equal the same takes symmetry and transitivity of the items,
so the two laws are proved together, by induction on the size of the values (`EqualityOn`).
-/

namespace TemplateEngine

namespace Value

/-- What equality of two values comes down to at its outermost constructors. -/
inductive Alike : Value → Value → Prop where
  | number {a b : Value} {x y : Numeric} (ha : a.number? = some x) (hb : b.number? = some y)
      (h : x.equals y = true) : Alike a b
  | nil : Alike .nil .nil
  | str (s : String) : Alike (.str s) (.str s)
  | list {xs ys : List Value} (h : equalsAll xs ys = true) : Alike (.list xs) (.list ys)
  | tuple {xs ys : List Value} (h : equalsAll xs ys = true) : Alike (.tuple xs) (.tuple ys)
  | set {xs ys : List Value} (hlen : xs.length = ys.length) (h : containedIn xs ys = true) :
      Alike (.set xs) (.set ys)
  | dict {es fs : List (Value × Value)} (hlen : es.length = fs.length)
      (h : entriesIn es fs = true) : Alike (.dict es) (.dict fs)
  | object {i : Nat} {t t' : String} {as as' : List (String × Value)}
      {es es' : List (Value × Value)} {u u' : String} :
      Alike (.object i t as es u) (.object i t' as' es' u')
  | builtin (f : Builtin) : Alike (.builtin f) (.builtin f)
  | method {site : Site} {r r' : Value} {m m' : Method} :
      Alike (.method site r m) (.method site r' m')
  | host {i : Nat} {n n' : String} : Alike (.host i n) (.host i n')

theorem equals_iff_alike {a b : Value} : a.equals b = true ↔ Alike a b := by
  constructor
  · intro h
    rw [equals.eq_def] at h
    split at h
    · exact .nil
    · exact eq_of_beq h ▸ .str _
    · exact .list h
    · exact .tuple h
    · obtain ⟨hlen, h⟩ := Bool.and_eq_true_iff.mp h
      exact .set (eq_of_beq hlen) h
    · obtain ⟨hlen, h⟩ := Bool.and_eq_true_iff.mp h
      exact .dict (eq_of_beq hlen) h
    · exact eq_of_beq h ▸ .object
    · exact eq_of_beq h ▸ .builtin _
    · exact eq_of_beq h ▸ .method
    · exact eq_of_beq h ▸ .host
    · -- values of two kinds are equal only as numbers
      unfold equalsNumber at h
      split at h
      · next ha hb => exact .number ha hb h
      · cases h
  · intro h
    cases h with
    | number ha hb h => rw [equals_of_number? ha hb, h]
    | set hlen h | dict hlen h => simp [equals, hlen, h]
    | list h | tuple h => simp [equals, h]
    | nil | str _ | object | builtin _ | method | host => simp [equals]

/-! ### Items and entries -/

theorem equalsAll_iff {xs ys : List Value} :
    equalsAll xs ys = true ↔ List.Forall₂ (fun x y => x.equals y = true) xs ys := by
  induction xs generalizing ys with
  | nil => cases ys <;> simp [equalsAll]
  | cons x xs ih => cases ys <;> simp [equalsAll, ih]

theorem containedIn_iff {xs ys : List Value} :
    containedIn xs ys = true ↔ ∀ x ∈ xs, ∃ y ∈ ys, x.equals y = true := by
  induction xs with
  | nil => simp [containedIn]
  | cons x xs ih => simp [containedIn, ih]

theorem entriesIn_iff {es fs : List (Value × Value)} :
    entriesIn es fs = true ↔
      ∀ e ∈ es, ∃ f, fs.find? (fun f => e.1.equals f.1) = some f ∧ e.2.equals f.2 = true := by
  induction es with
  | nil => simp [entriesIn]
  | cons e es ih =>
    obtain ⟨k, v⟩ := e
    rw [List.forall_mem_cons, ← ih, entriesIn, Bool.and_eq_true]
    refine and_congr_left fun _ => ?_
    cases hf : fs.find? (fun f => k.equals f.1) with
    | none => simp
    | some f => simp only [Option.some.injEq, exists_eq_left']

theorem Alike.number?_right {a b : Value} {x : Numeric} (h : Alike a b) (ha : a.number? = some x) :
    ∃ y, b.number? = some y ∧ x.equals y = true := by
  cases h with
  | number ha' hb h =>
    cases ha.symm.trans ha'
    exact ⟨_, hb, h⟩
  | _ => cases ha

/-- In lists, tuples, sets and dicts at any depth, no two items of a set and no two keys of a
dict are equal. -/
inductive IsDistinct : Value → Prop where
  | nil : IsDistinct .nil
  | bool (b : Bool) : IsDistinct (.bool b)
  | int (i : Int64) : IsDistinct (.int i)
  | float (x : Binary64) : IsDistinct (.float x)
  | str (s : String) : IsDistinct (.str s)
  | list {xs : List Value} (items : ∀ x ∈ xs, IsDistinct x) : IsDistinct (.list xs)
  | tuple {xs : List Value} (items : ∀ x ∈ xs, IsDistinct x) : IsDistinct (.tuple xs)
  | set {xs : List Value} (items : ∀ x ∈ xs, IsDistinct x)
      (distinct : xs.Pairwise fun x y => x.equals y = false) : IsDistinct (.set xs)
  | dict {es : List (Value × Value)} (keys : ∀ e ∈ es, IsDistinct e.1)
      (values : ∀ e ∈ es, IsDistinct e.2)
      (distinct : es.Pairwise fun e f => e.1.equals f.1 = false) : IsDistinct (.dict es)
  | object (identity : Nat) (type : String) (attrs : List (String × Value))
      (items : List (Value × Value)) (text : String) :
      IsDistinct (.object identity type attrs items text)
  | builtin (f : Builtin) : IsDistinct (.builtin f)
  | method (site : Site) (receiver : Value) (m : Method) : IsDistinct (.method site receiver m)
  | host (identity : Nat) (name : String) : IsDistinct (.host identity name)

/-- Of two rows of one length, where every item of the first is related to one of the second and
no two items of the first to the same, every item of the second is related to one of the first. -/
theorem exists_of_length_eq {α : Type} {R : α → α → Prop} {xs ys : List α}
    (hlen : xs.length = ys.length) (h : ∀ x ∈ xs, ∃ y ∈ ys, R x y)
    (hinj : xs.Pairwise fun x x' => ∀ y ∈ ys, R x y → ¬ R x' y) :
    ∀ y ∈ ys, ∃ x ∈ xs, R x y := by
  choose! f hmem hR using h
  -- the chosen partners are different and as many as the items of the second row
  have hnodup : (xs.map f).Nodup := by
    refine List.pairwise_map.mpr (hinj.imp_of_mem fun {x x'} hx hx' hne heq => ?_)
    exact hne (f x) (hmem x hx) (hR x hx) (heq ▸ hR x' hx')
  have hsubset : xs.map f ⊆ ys := by
    intro y hy
    obtain ⟨x, hx, rfl⟩ := List.mem_map.mp hy
    exact hmem x hx
  have hperm : (xs.map f).Perm ys :=
    (List.subperm_of_subset hnodup hsubset).perm_of_length_le (by simp [hlen])
  intro y hy
  obtain ⟨x, hx, rfl⟩ := List.mem_map.mp (hperm.mem_iff.mpr hy)
  exact ⟨x, hx, hR x hx⟩

/-- On these values equality is symmetric and transitive. -/
structure EqualityOn (S : Value → Prop) : Prop where
  symm {a b : Value} (ha : S a) (hb : S b) (h : a.equals b = true) : b.equals a = true
  trans {a b c : Value} (ha : S a) (hb : S b) (hc : S c) (hab : a.equals b = true)
    (hbc : b.equals c = true) : a.equals c = true

namespace EqualityOn

variable {S : Value → Prop} {xs ys zs : List Value} {es fs gs : List (Value × Value)}

theorem equalsAll_symm (hS : EqualityOn S) (hx : ∀ x ∈ xs, S x) (hy : ∀ y ∈ ys, S y)
    (h : equalsAll xs ys = true) : equalsAll ys xs = true := by
  rw [equalsAll_iff] at *
  induction h with
  | nil => exact .nil
  | cons h _ ih =>
    rw [List.forall_mem_cons] at hx hy
    exact .cons (hS.symm hx.1 hy.1 h) (ih hx.2 hy.2)

theorem equalsAll_trans (hS : EqualityOn S) (hx : ∀ x ∈ xs, S x) (hy : ∀ y ∈ ys, S y)
    (hz : ∀ z ∈ zs, S z) (hxy : equalsAll xs ys = true) (hyz : equalsAll ys zs = true) :
    equalsAll xs zs = true := by
  rw [equalsAll_iff] at *
  induction hxy generalizing zs with
  | nil => exact hyz
  | cons h _ ih =>
    cases hyz with
    | cons h' htail =>
      rw [List.forall_mem_cons] at hx hy hz
      exact .cons (hS.trans hx.1 hy.1 hz.1 h h') (ih hx.2 hy.2 hz.2 htail)

theorem containedIn_symm (hS : EqualityOn S) (hx : ∀ x ∈ xs, S x) (hy : ∀ y ∈ ys, S y)
    (hd : xs.Pairwise fun x x' => x.equals x' = false) (hlen : xs.length = ys.length)
    (h : containedIn xs ys = true) : containedIn ys xs = true := by
  rw [containedIn_iff] at *
  have hinj : xs.Pairwise fun x x' => ∀ y ∈ ys, x.equals y = true → ¬ x'.equals y = true := by
    -- items that equal one item of the other set equal each other
    refine hd.imp_of_mem fun {x x'} hxs hxs' hne y hys hxy hxy' => ?_
    have hxx' := hS.trans (hx x hxs) (hy y hys) (hx x' hxs') hxy
      (hS.symm (hx x' hxs') (hy y hys) hxy')
    exact Bool.false_ne_true (hne.symm.trans hxx')
  intro y hys
  obtain ⟨x, hxs, hxy⟩ := exists_of_length_eq hlen h hinj y hys
  exact ⟨x, hxs, hS.symm (hx x hxs) (hy y hys) hxy⟩

theorem containedIn_trans (hS : EqualityOn S) (hx : ∀ x ∈ xs, S x) (hy : ∀ y ∈ ys, S y)
    (hz : ∀ z ∈ zs, S z) (hxy : containedIn xs ys = true) (hyz : containedIn ys zs = true) :
    containedIn xs zs = true := by
  rw [containedIn_iff] at *
  intro x hxs
  obtain ⟨y, hys, h⟩ := hxy x hxs
  obtain ⟨z, hzs, h'⟩ := hyz y hys
  exact ⟨z, hzs, hS.trans (hx x hxs) (hy y hys) (hz z hzs) h h'⟩

/-- Where no two keys are equal, the first entry with an equal key is the only one. -/
theorem entriesIn_iff_exists (hS : EqualityOn S) (he : ∀ e ∈ es, S e.1) (hf : ∀ f ∈ fs, S f.1)
    (hd : fs.Pairwise fun f f' => f.1.equals f'.1 = false) :
    entriesIn es fs = true ↔
      ∀ e ∈ es, ∃ f ∈ fs, e.1.equals f.1 = true ∧ e.2.equals f.2 = true := by
  rw [entriesIn_iff]
  refine forall₂_congr fun e hes => ⟨?_, ?_⟩
  · rintro ⟨f, hfind, hvalue⟩
    have hkey : e.1.equals f.1 = true := by simpa using List.find?_some hfind
    exact ⟨f, List.mem_of_find?_eq_some hfind, hkey, hvalue⟩
  · rintro ⟨f, hfs, hkey, hvalue⟩
    obtain ⟨before, after, rfl⟩ := List.append_of_mem hfs
    refine ⟨f, List.find?_eq_some_iff_append.mpr ⟨hkey, before, after, rfl, fun f' hf' => ?_⟩,
      hvalue⟩
    -- an equal key before would equal the key of `f`
    rw [Bool.not_eq_true', Bool.eq_false_iff]
    intro hkey'
    have hmem : f' ∈ before ++ f :: after := List.mem_append_left _ hf'
    have hff' := hS.trans (hf f' hmem) (he e hes) (hf f hfs)
      (hS.symm (he e hes) (hf f' hmem) hkey') hkey
    have hne := (List.pairwise_append.mp hd).2.2 f' hf' f List.mem_cons_self
    exact Bool.false_ne_true (hne.symm.trans hff')

theorem entriesIn_symm (hS : EqualityOn S) (he : ∀ e ∈ es, S e.1 ∧ S e.2)
    (hf : ∀ f ∈ fs, S f.1 ∧ S f.2) (hde : es.Pairwise fun e e' => e.1.equals e'.1 = false)
    (hdf : fs.Pairwise fun f f' => f.1.equals f'.1 = false) (hlen : es.length = fs.length)
    (h : entriesIn es fs = true) : entriesIn fs es = true := by
  rw [hS.entriesIn_iff_exists (fun e h => (he e h).1) (fun f h => (hf f h).1) hdf] at h
  rw [hS.entriesIn_iff_exists (fun f h => (hf f h).1) (fun e h => (he e h).1) hde]
  have hinj : es.Pairwise fun e e' => ∀ f ∈ fs, (e.1.equals f.1 = true ∧ e.2.equals f.2 = true) →
      ¬ (e'.1.equals f.1 = true ∧ e'.2.equals f.2 = true) := by
    refine hde.imp_of_mem fun {e e'} hes hes' hne f hfs hef hef' => ?_
    have hee' := hS.trans (he e hes).1 (hf f hfs).1 (he e' hes').1 hef.1
      (hS.symm (he e' hes').1 (hf f hfs).1 hef'.1)
    exact Bool.false_ne_true (hne.symm.trans hee')
  intro f hfs
  obtain ⟨e, hes, hkey, hvalue⟩ := exists_of_length_eq hlen h hinj f hfs
  exact ⟨e, hes, hS.symm (he e hes).1 (hf f hfs).1 hkey, hS.symm (he e hes).2 (hf f hfs).2 hvalue⟩

theorem entriesIn_trans (hS : EqualityOn S) (he : ∀ e ∈ es, S e.1 ∧ S e.2)
    (hf : ∀ f ∈ fs, S f.1 ∧ S f.2) (hg : ∀ g ∈ gs, S g.1 ∧ S g.2)
    (hdf : fs.Pairwise fun f f' => f.1.equals f'.1 = false)
    (hdg : gs.Pairwise fun g g' => g.1.equals g'.1 = false)
    (hef : entriesIn es fs = true) (hfg : entriesIn fs gs = true) : entriesIn es gs = true := by
  rw [hS.entriesIn_iff_exists (fun e h => (he e h).1) (fun f h => (hf f h).1) hdf] at hef
  rw [hS.entriesIn_iff_exists (fun f h => (hf f h).1) (fun g h => (hg g h).1) hdg] at hfg
  rw [hS.entriesIn_iff_exists (fun e h => (he e h).1) (fun g h => (hg g h).1) hdg]
  intro e hes
  obtain ⟨f, hfs, hkey, hvalue⟩ := hef e hes
  obtain ⟨g, hgs, hkey', hvalue'⟩ := hfg f hfs
  exact ⟨g, hgs, hS.trans (he e hes).1 (hf f hfs).1 (hg g hgs).1 hkey hkey',
    hS.trans (he e hes).2 (hf f hfs).2 (hg g hgs).2 hvalue hvalue'⟩

end EqualityOn

/-! ### The laws of equality -/

/-- The values that an induction on size has come to: in a chain of equal values each is as large
as it likes. -/
def Bounded (n : Nat) (v : Value) : Prop := v.IsDistinct ∧ sizeOf v ≤ n

section Bounded

variable {n : Nat} {xs : List Value} {es : List (Value × Value)}

theorem not_bounded_zero (v : Value) : ¬ Bounded 0 v := by
  rintro ⟨-, hsize⟩
  cases v <;> simp at hsize

theorem bounded_items (hx : ∀ x ∈ xs, x.IsDistinct) (hsize : 1 + sizeOf xs ≤ n + 1) :
    ∀ x ∈ xs, Bounded n x := by
  intro x h
  have hlt := List.sizeOf_lt_of_mem h
  exact ⟨hx x h, by omega⟩

theorem Bounded.of_list (h : Bounded (n + 1) (.list xs)) : ∀ x ∈ xs, Bounded n x := by
  obtain ⟨hd, hsize⟩ := h
  cases hd with
  | list items => exact bounded_items items (by simpa using hsize)

theorem Bounded.of_tuple (h : Bounded (n + 1) (.tuple xs)) : ∀ x ∈ xs, Bounded n x := by
  obtain ⟨hd, hsize⟩ := h
  cases hd with
  | tuple items => exact bounded_items items (by simpa using hsize)

theorem Bounded.of_set (h : Bounded (n + 1) (.set xs)) :
    (∀ x ∈ xs, Bounded n x) ∧ xs.Pairwise fun x y => x.equals y = false := by
  obtain ⟨hd, hsize⟩ := h
  cases hd with
  | set items distinct => exact ⟨bounded_items items (by simpa using hsize), distinct⟩

theorem Bounded.of_dict (h : Bounded (n + 1) (.dict es)) :
    (∀ e ∈ es, Bounded n e.1 ∧ Bounded n e.2) ∧
      es.Pairwise fun e f => e.1.equals f.1 = false := by
  obtain ⟨hd, hsize⟩ := h
  cases hd with
  | dict keys values distinct =>
    refine ⟨fun e he => ?_, distinct⟩
    have hlt := List.sizeOf_lt_of_mem he
    have hpair : sizeOf e = 1 + sizeOf e.1 + sizeOf e.2 := rfl
    have hdict : sizeOf (Value.dict es) = 1 + sizeOf es := Value.dict.sizeOf_spec es
    exact ⟨⟨keys e he, by omega⟩, ⟨values e he, by omega⟩⟩

end Bounded

theorem EqualityOn.symm_succ {n : Nat} (hn : EqualityOn (Bounded n)) {a b : Value}
    (ha : Bounded (n + 1) a) (hb : Bounded (n + 1) b) (h : Alike a b) : Alike b a := by
  cases h with
  | number hx hy h => exact .number hy hx (Numeric.equals_symm h)
  | nil => exact .nil
  | str s => exact .str s
  | list h => exact .list (hn.equalsAll_symm ha.of_list hb.of_list h)
  | tuple h => exact .tuple (hn.equalsAll_symm ha.of_tuple hb.of_tuple h)
  | set hlen h =>
    exact .set hlen.symm (hn.containedIn_symm ha.of_set.1 hb.of_set.1 ha.of_set.2 hlen h)
  | dict hlen h =>
    exact .dict hlen.symm
      (hn.entriesIn_symm ha.of_dict.1 hb.of_dict.1 ha.of_dict.2 hb.of_dict.2 hlen h)
  | object => exact .object
  | builtin f => exact .builtin f
  | method => exact .method
  | host => exact .host

theorem EqualityOn.trans_succ {n : Nat} (hn : EqualityOn (Bounded n)) {a b c : Value}
    (ha : Bounded (n + 1) a) (hb : Bounded (n + 1) b) (hc : Bounded (n + 1) c) (hab : Alike a b)
    (hbc : Alike b c) : Alike a c := by
  cases hab with
  | number hx hy h =>
    obtain ⟨z, hz, h'⟩ := hbc.number?_right hy
    exact .number hx hz (Numeric.equals_trans h h')
  | nil | str _ | builtin _ => exact hbc
  | list h =>
    cases hbc with
    | number hy => cases hy
    | list h' => exact .list (hn.equalsAll_trans ha.of_list hb.of_list hc.of_list h h')
  | tuple h =>
    cases hbc with
    | number hy => cases hy
    | tuple h' => exact .tuple (hn.equalsAll_trans ha.of_tuple hb.of_tuple hc.of_tuple h h')
  | set hlen h =>
    cases hbc with
    | number hy => cases hy
    | set hlen' h' =>
      exact .set (hlen.trans hlen')
        (hn.containedIn_trans ha.of_set.1 hb.of_set.1 hc.of_set.1 h h')
  | dict hlen h =>
    cases hbc with
    | number hy => cases hy
    | dict hlen' h' =>
      exact .dict (hlen.trans hlen') (hn.entriesIn_trans ha.of_dict.1 hb.of_dict.1 hc.of_dict.1
        hb.of_dict.2 hc.of_dict.2 h h')
  | object =>
    cases hbc with
    | number hy => cases hy
    | object => exact .object
  | method =>
    cases hbc with
    | number hy => cases hy
    | method => exact .method
  | host =>
    cases hbc with
    | number hy => cases hy
    | host => exact .host

theorem equalityOn_bounded (n : Nat) : EqualityOn (Bounded n) := by
  induction n with
  | zero =>
    constructor
    · exact fun ha => absurd ha (not_bounded_zero _)
    · exact fun ha => absurd ha (not_bounded_zero _)
  | succ n ih =>
    constructor
    · intro a b ha hb h
      rw [equals_iff_alike] at *
      exact ih.symm_succ ha hb h
    · intro a b c ha hb hc hab hbc
      rw [equals_iff_alike] at *
      exact ih.trans_succ ha hb hc hab hbc

theorem equalityOn_isDistinct : EqualityOn IsDistinct where
  symm {a b} ha hb h := by
    refine (equalityOn_bounded (sizeOf a + sizeOf b)).symm ⟨ha, ?_⟩ ⟨hb, ?_⟩ h <;> omega
  trans {a b c} ha hb hc hab hbc := by
    refine (equalityOn_bounded (sizeOf a + sizeOf b + sizeOf c)).trans
      ⟨ha, ?_⟩ ⟨hb, ?_⟩ ⟨hc, ?_⟩ hab hbc <;> omega

/-! ### Values that equal themselves -/

/-- The value is reached through lists, tuples, sets and dicts. -/
inductive Within (v : Value) : Value → Prop where
  | self : Within v v
  | list {xs : List Value} {x : Value} (hx : x ∈ xs) (h : Within v x) : Within v (.list xs)
  | tuple {xs : List Value} {x : Value} (hx : x ∈ xs) (h : Within v x) : Within v (.tuple xs)
  | set {xs : List Value} {x : Value} (hx : x ∈ xs) (h : Within v x) : Within v (.set xs)
  | key {es : List (Value × Value)} {e : Value × Value} (he : e ∈ es) (h : Within v e.1) :
      Within v (.dict es)
  | value {es : List (Value × Value)} {e : Value × Value} (he : e ∈ es) (h : Within v e.2) :
      Within v (.dict es)

/-- No NaN is reached from the value. -/
def IsNaNFree (v : Value) : Prop := ∀ x : Binary64, Within (.float x) v → x.isNaN = false

/-- The values that the constructor of a value holds. -/
def parts : Value → List Value
  | .list xs | .tuple xs | .set xs => xs
  | .dict es => es.flatMap fun e => [e.1, e.2]
  | _ => []

/-- Nothing but a number is a NaN on its own. -/
theorem isNaNFree_iff_parts {a : Value} (ha : a.number? = none) :
    a.IsNaNFree ↔ ∀ x ∈ a.parts, x.IsNaNFree := by
  constructor
  · intro h x hx y hy
    refine h y ?_
    cases a with
    | list xs => exact .list hx hy
    | tuple xs => exact .tuple hx hy
    | set xs => exact .set hx hy
    | dict es =>
      obtain ⟨e, he, hx⟩ := List.mem_flatMap.mp hx
      rcases List.mem_pair.mp hx with rfl | rfl
      · exact .key he hy
      · exact .value he hy
    | _ => cases hx
  · intro h y hy
    cases hy with
    | self => cases ha
    | list hx hy | tuple hx hy | set hx hy => exact h _ hx y hy
    | key he hy => exact h _ (List.mem_flatMap.mpr ⟨_, he, by simp⟩) y hy
    | value he hy => exact h _ (List.mem_flatMap.mpr ⟨_, he, by simp⟩) y hy

theorem equalsAll_self_iff {xs : List Value} :
    equalsAll xs xs = true ↔ ∀ x ∈ xs, x.equals x = true := by
  rw [equalsAll_iff, List.forall₂_same]

/-- What equals another value equals itself. -/
theorem EqualityOn.equals_self {S : Value → Prop} (hS : EqualityOn S) {a b : Value} (ha : S a)
    (hb : S b) (h : a.equals b = true) : a.equals a = true :=
  hS.trans ha hb ha h (hS.symm ha hb h)

theorem equals_set_self_iff {xs : List Value} (hx : ∀ x ∈ xs, x.IsDistinct) :
    (Value.set xs).equals (.set xs) = true ↔ ∀ x ∈ xs, x.equals x = true := by
  have h : (Value.set xs).equals (.set xs) = containedIn xs xs := by simp [equals]
  rw [h, containedIn_iff]
  constructor
  · intro h x hxs
    obtain ⟨y, hys, hxy⟩ := h x hxs
    exact equalityOn_isDistinct.equals_self (hx x hxs) (hx y hys) hxy
  · exact fun h x hxs => ⟨x, hxs, h x hxs⟩

theorem equals_dict_self_iff {es : List (Value × Value)} (hk : ∀ e ∈ es, e.1.IsDistinct)
    (hv : ∀ e ∈ es, e.2.IsDistinct) (hd : es.Pairwise fun e f => e.1.equals f.1 = false) :
    (Value.dict es).equals (.dict es) = true ↔
      ∀ e ∈ es, e.1.equals e.1 = true ∧ e.2.equals e.2 = true := by
  have h : (Value.dict es).equals (.dict es) = entriesIn es es := by simp [equals]
  rw [h, equalityOn_isDistinct.entriesIn_iff_exists hk hk hd]
  constructor
  · intro h e hes
    obtain ⟨f, hfs, hkey, hvalue⟩ := h e hes
    exact ⟨equalityOn_isDistinct.equals_self (hk e hes) (hk f hfs) hkey,
      equalityOn_isDistinct.equals_self (hv e hes) (hv f hfs) hvalue⟩
  · exact fun h e hes => ⟨e, hes, h e hes⟩

/-- A value equals itself unless a NaN is reached from it. -/
theorem equals_self_iff {a : Value} (ha : a.IsDistinct) : a.equals a = true ↔ a.IsNaNFree := by
  induction ha with
  | bool _ | int _ =>
    refine iff_of_true (by simp [equals, equalsNumber, number?, Numeric.equals]) ?_
    intro x h
    cases h
  | float x =>
    rw [equals_of_number? rfl rfl, Numeric.equals_self_iff]
    constructor
    · intro h y hy
      cases hy
      exact h
    · exact fun h => h x .self
  | nil | str _ | object | builtin _ | method | host =>
    rw [isNaNFree_iff_parts rfl]
    simp [equals, parts]
  | @list xs _ ih =>
    rw [isNaNFree_iff_parts rfl, equals, equalsAll_self_iff]
    exact forall₂_congr ih
  | @tuple xs _ ih =>
    rw [isNaNFree_iff_parts rfl, equals, equalsAll_self_iff]
    exact forall₂_congr ih
  | set items _ ih =>
    rw [isNaNFree_iff_parts rfl, equals_set_self_iff items]
    exact forall₂_congr ih
  | dict keys values distinct ihk ihv =>
    rw [isNaNFree_iff_parts rfl, equals_dict_self_iff keys values distinct]
    simp only [parts, List.mem_flatMap, List.mem_pair, forall_exists_index, and_imp]
    constructor
    · rintro h x e he (rfl | rfl)
      · exact (ihk e he).mp (h e he).1
      · exact (ihv e he).mp (h e he).2
    · exact fun h e he => ⟨(ihk e he).mpr (h _ e he (.inl rfl)),
        (ihv e he).mpr (h _ e he (.inr rfl))⟩

/-! ### Members of sequences -/

/-- The items of a list or a tuple. -/
def members : Value → List Value
  | .list xs | .tuple xs => xs
  | _ => []

theorem sizeOf_lt_of_mem_members {a x : Value} (h : x ∈ a.members) : sizeOf x < sizeOf a := by
  cases a with
  | list xs | tuple xs =>
    have hlt := List.sizeOf_lt_of_mem (show x ∈ xs from h)
    simp only [list.sizeOf_spec, tuple.sizeOf_spec]
    omega
  | _ => cases h

/-- Induction on how deep lists and tuples are nested. -/
@[elab_as_elim]
theorem members_induction {motive : Value → Prop}
    (step : ∀ a, (∀ x ∈ a.members, motive x) → motive a) (a : Value) : motive a :=
  step a fun x _ => members_induction step x
termination_by sizeOf a
decreasing_by exact sizeOf_lt_of_mem_members ‹_›

/-! ### Hashes of equal values -/

theorem hashed_of_number? {a : Value} {x : Numeric} (h : a.number? = some x) :
    a.hashed = x.hashed := by
  cases a <;> cases h <;> rw [hashed]

theorem hashedAll_of_equalsAll {xs ys : List Value} (h : equalsAll xs ys = true)
    (hxs : ∀ x ∈ xs, ∀ y, x.equals y = true → x.hashed = y.hashed) :
    hashedAll xs = hashedAll ys ∧ xs.length = ys.length := by
  rw [equalsAll_iff] at h
  refine ⟨?_, h.length_eq⟩
  induction h with
  | nil => rfl
  | cons hhead _ ih =>
    rw [List.forall_mem_cons] at hxs
    rw [hashedAll, hashedAll, hxs.1 _ hhead, ih hxs.2]

/-- Equal values are hashed alike. -/
theorem hashed_of_equals {a b : Value} (h : a.equals b = true) : a.hashed = b.hashed := by
  induction a using members_induction generalizing b with
  | step a ih =>
    cases equals_iff_alike.mp h with
    | number ha hb hxy =>
      rw [hashed_of_number? ha, hashed_of_number? hb, Numeric.hashed_of_equals hxy]
    | nil | str _ | builtin _ => rfl
    | list hitems =>
      obtain ⟨hall, hlen⟩ := hashedAll_of_equalsAll hitems fun x hx y => ih x hx
      rw [hashed, hashed, hall, hlen]
    | tuple hitems =>
      obtain ⟨hall, hlen⟩ := hashedAll_of_equalsAll hitems fun x hx y => ih x hx
      rw [hashed, hashed, hall, hlen]
    | set hlen | dict hlen => rw [hashed, hashed, hlen]
    | object | method | host => rw [hashed, hashed]

/-! ### The contract -/

theorem isDistinct_of_number? {a : Value} {x : Numeric} (h : a.number? = some x) :
    a.IsDistinct := by
  cases a <;> cases h <;> constructor

theorem isDistinct_pair {a b : Value} {x y : Numeric} (ha : a.number? = some x)
    (hb : b.number? = some y) (h : x.equals y = false) : IsDistinct (.set [a, b]) := by
  refine .set ?_ (List.pairwise_pair.mpr ((equals_of_number? ha hb).trans h))
  simpa using ⟨isDistinct_of_number? ha, isDistinct_of_number? hb⟩

theorem equals_pair {a b c d : Value} (ha : a.equals c = true ∨ a.equals d = true)
    (hb : b.equals c = true ∨ b.equals d = true) : (Value.set [a, b]).equals (.set [c, d]) = true :=
  equals_iff_alike.mpr (.set rfl (containedIn_iff.mpr (by simpa using ⟨ha, hb⟩)))

/-- Equality is symmetric and transitive on values with distinct items and keys, such a value equals
itself unless a NaN is reached from it, and equal values are hashed alike. -/
theorem equality_contract {a b c : Value} (ha : a.IsDistinct) (hb : b.IsDistinct)
    (hc : c.IsDistinct) :
    (a.equals b = true → b.equals a = true) ∧
      (a.equals b = true → b.equals c = true → a.equals c = true) ∧
      (a.equals a = true ↔ a.IsNaNFree) ∧
      (a.equals b = true → a.hashed = b.hashed) := by
  refine ⟨?_, ?_, equals_self_iff ha, ?_⟩
  · exact equalityOn_isDistinct.symm ha hb
  · exact equalityOn_isDistinct.trans ha hb hc
  · exact hashed_of_equals

/-- The order of a set does not count, and one and two are equal in all types of numbers. -/
theorem equality_contract_sets :
    (Value.set [.float ⟨0x4000000000000000⟩, .bool true]).equals
        (.set [.int 1, .float ⟨0x4000000000000000⟩]) = true ∧
      (Value.set [.int 1, .float ⟨0x4000000000000000⟩]).equals (.set [.int 2, .bool true]) = true ∧
      (Value.set [.int 1, .float ⟨0x4000000000000000⟩]).IsNaNFree ∧
      (Value.set [.int 1, .float ⟨0x4000000000000000⟩]).hashed =
        (Value.set [.float ⟨0x4000000000000000⟩, .bool true]).hashed := by
  have ha : IsDistinct (.set [.int 1, .float ⟨0x4000000000000000⟩]) :=
    isDistinct_pair rfl rfl (by decide)
  have hb : IsDistinct (.set [.float ⟨0x4000000000000000⟩, .bool true]) :=
    isDistinct_pair rfl rfl (by decide)
  have hc : IsDistinct (.set [.int 2, .bool true]) := isDistinct_pair rfl rfl (by decide)
  have hab : (Value.set [.int 1, .float ⟨0x4000000000000000⟩]).equals
      (.set [.float ⟨0x4000000000000000⟩, .bool true]) = true :=
    equals_pair (.inr ((equals_of_number? rfl rfl).trans (by decide)))
      (.inl ((equals_of_number? rfl rfl).trans (by decide)))
  have hbc : (Value.set [.float ⟨0x4000000000000000⟩, .bool true]).equals
      (.set [.int 2, .bool true]) = true :=
    equals_pair (.inl ((equals_of_number? rfl rfl).trans (by decide)))
      (.inr ((equals_of_number? rfl rfl).trans (by decide)))
  obtain ⟨hsymm, htrans, hself, hhash⟩ := equality_contract ha hb hc
  exact ⟨hsymm hab, htrans hab hbc, hself.mp (equalityOn_isDistinct.equals_self ha hb hab),
    hhash hab⟩

end Value

end TemplateEngine
