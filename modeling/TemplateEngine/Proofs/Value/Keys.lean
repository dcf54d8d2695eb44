import TemplateEngine.Expr.Eval
import TemplateEngine.Proofs.Value.Sorting

/-!
# Elements and keys

Lists, sets and dicts are no elements of sets and no keys of dicts (`KeysHashable`).  A value is
well keyed when that holds of every value that is reached from it: of the items of containers, of
what an object gives, and of the receiver that a method is bound to.

Operators and members give well-keyed values for well-keyed operands: sets and dicts that are
combined or cut down have elements and keys of their operands.
-/

namespace TemplateEngine

variable {α β : Type}

namespace Value

/-! ### What a value reaches -/

/-- The values that a value gives: items, keys and values, what an object has, and the receiver of
a method. -/
def held : Value → List Value
  | .list xs | .tuple xs | .set xs => xs
  | .dict es => es.flatMap fun e => [e.1, e.2]
  | .object _ _ attrs items _ => attrs.map Prod.snd ++ items.map Prod.snd
  | .method _ receiver _ => [receiver]
  | .nil | .bool _ | .int _ | .float _ | .str _ | .builtin _ | .host .. => []

/-- The second value is the first one, or lies in it at any depth. -/
inductive Reaches : Value → Value → Prop where
  | self (v : Value) : Reaches v v
  | held {v w x : Value} (hx : x ∈ v.held) (h : Reaches x w) : Reaches v w

/-- No element of the set, and no key of the dict, is a list, a set or a dict. -/
def KeysHashable : Value → Prop
  | .set xs => ∀ x ∈ xs, x.isHashable = true
  | .dict es => ∀ e ∈ es, e.1.isHashable = true
  | _ => True

instance : (v : Value) → Decidable v.KeysHashable
  | .set xs => inferInstanceAs (Decidable (∀ x ∈ xs, x.isHashable = true))
  | .dict es => inferInstanceAs (Decidable (∀ e ∈ es, e.1.isHashable = true))
  | .nil | .bool _ | .int _ | .float _ | .str _ | .list _ | .tuple _ | .object .. | .method .. |
    .builtin _ | .host .. => isTrue trivial

/-- No set in the value has a list, a set or a dict as an element, and no dict has one as a key. -/
def WellKeyed (v : Value) : Prop := ∀ w, v.Reaches w → w.KeysHashable

theorem wellKeyed_iff {v : Value} :
    v.WellKeyed ↔ v.KeysHashable ∧ ∀ x ∈ v.held, x.WellKeyed := by
  constructor
  · exact fun h => ⟨h v (.self v), fun x hx w hw => h w (.held hx hw)⟩
  · rintro ⟨hv, hheld⟩ w (_ | ⟨hx, hw⟩)
    · exact hv
    · exact hheld _ hx w hw

@[simp] theorem wellKeyed_nil : nil.WellKeyed := wellKeyed_iff.mpr ⟨trivial, List.forall_mem_nil _⟩

@[simp] theorem wellKeyed_bool (b : Bool) : (bool b).WellKeyed :=
  wellKeyed_iff.mpr ⟨trivial, List.forall_mem_nil _⟩

@[simp] theorem wellKeyed_int (i : Int64) : (int i).WellKeyed :=
  wellKeyed_iff.mpr ⟨trivial, List.forall_mem_nil _⟩

@[simp] theorem wellKeyed_float (x : Binary64) : (float x).WellKeyed :=
  wellKeyed_iff.mpr ⟨trivial, List.forall_mem_nil _⟩

@[simp] theorem wellKeyed_str (s : String) : (str s).WellKeyed :=
  wellKeyed_iff.mpr ⟨trivial, List.forall_mem_nil _⟩

@[simp] theorem wellKeyed_builtin (f : Builtin) : (builtin f).WellKeyed :=
  wellKeyed_iff.mpr ⟨trivial, List.forall_mem_nil _⟩

@[simp] theorem wellKeyed_host (identity : Nat) (name : String) : (host identity name).WellKeyed :=
  wellKeyed_iff.mpr ⟨trivial, List.forall_mem_nil _⟩

@[simp] theorem wellKeyed_list {xs : List Value} :
    (list xs).WellKeyed ↔ ∀ x ∈ xs, x.WellKeyed := by
  simp [wellKeyed_iff (v := list xs), KeysHashable, held]

@[simp] theorem wellKeyed_tuple {xs : List Value} :
    (tuple xs).WellKeyed ↔ ∀ x ∈ xs, x.WellKeyed := by
  simp [wellKeyed_iff (v := tuple xs), KeysHashable, held]

@[simp] theorem wellKeyed_set {xs : List Value} :
    (set xs).WellKeyed ↔ ∀ x ∈ xs, x.isHashable = true ∧ x.WellKeyed := by
  simp [wellKeyed_iff (v := set xs), KeysHashable, held, forall_and]

@[simp] theorem wellKeyed_dict {es : List (Value × Value)} :
    (dict es).WellKeyed ↔
      ∀ e ∈ es, (e.1.isHashable = true ∧ e.1.WellKeyed) ∧ e.2.WellKeyed := by
  simp only [wellKeyed_iff (v := dict es), KeysHashable, held, List.mem_flatMap, List.mem_cons,
    List.not_mem_nil, or_false]
  constructor
  · rintro ⟨hk, hheld⟩ e he
    exact ⟨⟨hk e he, hheld _ ⟨e, he, .inl rfl⟩⟩, hheld _ ⟨e, he, .inr rfl⟩⟩
  · refine fun h => ⟨fun e he => (h e he).1.1, ?_⟩
    rintro x ⟨e, he, rfl | rfl⟩
    · exact (h e he).1.2
    · exact (h e he).2

@[simp] theorem wellKeyed_object {identity : Nat} {type : String} {attrs : List (String × Value)}
    {items : List (Value × Value)} {text : String} :
    (object identity type attrs items text).WellKeyed ↔
      (∀ a ∈ attrs, a.2.WellKeyed) ∧ ∀ e ∈ items, e.2.WellKeyed := by
  simp only [wellKeyed_iff (v := object ..), KeysHashable, held, List.mem_append, List.mem_map,
    true_and]
  constructor
  · exact fun h => ⟨fun a ha => h _ (.inl ⟨a, ha, rfl⟩), fun e he => h _ (.inr ⟨e, he, rfl⟩)⟩
  · rintro ⟨hattrs, hitems⟩ x (⟨a, ha, rfl⟩ | ⟨e, he, rfl⟩)
    · exact hattrs a ha
    · exact hitems e he

@[simp] theorem wellKeyed_method {site : Site} {receiver : Value} {m : Method} :
    (method site receiver m).WellKeyed ↔ receiver.WellKeyed := by
  simp [wellKeyed_iff (v := method ..), KeysHashable, held]

/-! ### Sets and dicts -/

theorem mem_of_mem_insertItem {x y : Value} {xs : List Value} (h : y ∈ insertItem xs x) :
    y ∈ xs ∨ y = x := by
  unfold insertItem at h
  split at h
  · exact .inl h
  · simpa using h

theorem mem_of_mem_distinct {x : Value} {xs : List Value} (h : x ∈ distinct xs) : x ∈ xs := by
  have hrun : ∀ y ∈ xs.foldl insertItem [], y ∈ xs := by
    refine List.foldlRecOn (motive := fun ys => ∀ y ∈ ys, y ∈ xs) xs _
      (List.forall_mem_nil _) ?_
    intro ys hys x hx y hy
    rcases mem_of_mem_insertItem hy with hy | rfl
    · exact hys y hy
    · exact hx
  exact hrun x h

/-- An entry after an insertion has a key of before, or is the one that was inserted at the end. -/
theorem mem_insertEntry {e : Value × Value} {es : List (Value × Value)} {key value : Value}
    (h : e ∈ insertEntry key value es) :
    (∃ e' ∈ es, e.1 = e'.1 ∧ (e.2 = e'.2 ∨ e.2 = value)) ∨ e = (key, value) := by
  induction es with
  | nil => exact .inr (List.mem_singleton.mp h)
  | cons e₀ es ih =>
    rw [insertEntry] at h
    split at h
    · rcases List.mem_cons.mp h with rfl | h
      · exact .inl ⟨e₀, List.mem_cons_self, rfl, .inr rfl⟩
      · exact .inl ⟨e, List.mem_cons_of_mem _ h, rfl, .inl rfl⟩
    · rcases List.mem_cons.mp h with rfl | h
      · exact .inl ⟨e₀, List.mem_cons_self, rfl, .inl rfl⟩
      · rcases ih h with ⟨e', hmem, heq⟩ | heq
        · exact .inl ⟨e', List.mem_cons_of_mem _ hmem, heq⟩
        · exact .inr heq

/-- Entries keep the properties of keys and of values. -/
theorem forall_insertAll {P Q : Value → Prop} {es more : List (Value × Value)}
    (hes : ∀ e ∈ es, P e.1 ∧ Q e.2) (hmore : ∀ e ∈ more, P e.1 ∧ Q e.2) :
    ∀ e ∈ insertAll es more, P e.1 ∧ Q e.2 := by
  let Kept (es : List (Value × Value)) : Prop := ∀ e ∈ es, P e.1 ∧ Q e.2
  refine List.foldlRecOn (motive := Kept) more _ hes ?_
  intro es hes e₀ he₀ e he
  rcases mem_insertEntry he with ⟨e', he', hk, hv⟩ | rfl
  · refine ⟨hk ▸ (hes e' he').1, ?_⟩
    rcases hv with hv | hv
    · exact hv ▸ (hes e' he').2
    · exact hv ▸ (hmore e₀ he₀).2
  · exact hmore e₀ he₀

/-- The keys of the entries are hashable, and keys and values are well keyed. -/
def EntriesWellKeyed (es : List (Value × Value)) : Prop :=
  ∀ e ∈ es, (e.1.isHashable = true ∧ e.1.WellKeyed) ∧ e.2.WellKeyed

theorem EntriesWellKeyed.insert {es : List (Value × Value)} (h : EntriesWellKeyed es)
    {key value : Value} (hk : key.isHashable = true ∧ key.WellKeyed) (hv : value.WellKeyed) :
    EntriesWellKeyed (insertEntry key value es) := by
  have hentry : EntriesWellKeyed [(key, value)] := List.forall_mem_singleton.mpr ⟨hk, hv⟩
  exact forall_insertAll (P := fun k => k.isHashable = true ∧ k.WellKeyed) h hentry

/-! ### Operators -/

@[simp] theorem ensures_ofExact (i : Int) : Ensures WellKeyed (ofExact i) := by
  unfold ofExact
  split <;> simp

@[simp] theorem ensures_unsupported (op : String) (a b : Value) :
    Ensures WellKeyed (unsupported op a b) :=
  ensures_fail _ _

@[simp] theorem ensures_arithmetic (f : Int → Int → Int) (g : Binary64 → Binary64 → Binary64)
    (x y : Numeric) : Ensures WellKeyed (arithmetic f g x y) := by
  unfold arithmetic
  split <;> simp

section
variable {a b : Value} (ha : a.WellKeyed) (hb : b.WellKeyed)

include ha hb in
theorem ensures_add : Ensures WellKeyed (a.add b) := by
  unfold add
  split
  · exact ensures_arithmetic _ _ _ _
  · split
    · simp
    · exact ensures_ok_iff.mpr (wellKeyed_list.mpr
        (List.forall_mem_append.mpr ⟨wellKeyed_list.mp ha, wellKeyed_list.mp hb⟩))
    · exact ensures_ok_iff.mpr (wellKeyed_tuple.mpr
        (List.forall_mem_append.mpr ⟨wellKeyed_tuple.mp ha, wellKeyed_tuple.mp hb⟩))
    · simp

include ha in
theorem ensures_sub : Ensures WellKeyed (a.sub b) := by
  unfold sub
  split
  · exact ensures_arithmetic _ _ _ _
  · split
    · rw [wellKeyed_set] at ha
      exact ensures_ok_iff.mpr (wellKeyed_set.mpr fun x hx => ha x (List.mem_of_mem_filter hx))
    · simp

theorem wellKeyed_of_repeated? {v w : Value} {n : Nat} (hv : v.WellKeyed)
    (h : repeated? v n = some w) : w.WellKeyed := by
  have hflat : ∀ {xs : List Value}, (∀ x ∈ xs, x.WellKeyed) →
      ∀ x ∈ (List.replicate n xs).flatten, x.WellKeyed := by
    intro xs hxs x hx
    obtain ⟨ys, hys, hx⟩ := List.mem_flatten.mp hx
    exact hxs x (List.eq_of_mem_replicate hys ▸ hx)
  unfold repeated? at h
  split at h <;> cases h
  · simp
  · exact wellKeyed_list.mpr (hflat (wellKeyed_list.mp hv))
  · exact wellKeyed_tuple.mpr (hflat (wellKeyed_tuple.mp hv))

include ha hb in
theorem ensures_mul : Ensures WellKeyed (a.mul b) := by
  unfold mul
  split
  · exact ensures_arithmetic _ _ _ _
  · dsimp only
    split
    · next v hv =>
      split at hv
      · exact ensures_ok_iff.mpr (wellKeyed_of_repeated? ha hv)
      · exact ensures_ok_iff.mpr (wellKeyed_of_repeated? hb hv)
      · cases hv
    · simp

theorem ensures_trueDiv (a b : Value) : Ensures WellKeyed (a.trueDiv b) := by
  unfold trueDiv
  split
  · simp
  · split <;> simp

theorem ensures_floorDiv (a b : Value) : Ensures WellKeyed (a.floorDiv b) := by
  unfold floorDiv
  split
  · simp
  · split <;> simp
  · split <;> simp

theorem ensures_mod (a b : Value) : Ensures WellKeyed (a.mod b) := by
  unfold mod
  split
  · simp
  · split
    · simp
    · split <;> simp
  · split <;> simp

theorem ensures_pow (a b : Value) : Ensures WellKeyed (a.pow b) := by
  have inFloat : ∀ x y : Binary64, Ensures WellKeyed
      (if x.isZero && y.order? (.zero false) == some .lt then fail .zeroToNegativePower
        else .ok (.float (x.pow y)) : Except Error Value) := by
    intro x y
    split <;> simp
  unfold pow
  dsimp only
  split
  · simp
  · split
    · split
      · simp
      · split <;> simp
    · exact inFloat _ _
  · exact inFloat _ _

@[simp] theorem ensures_onBits (op : String) (f : Int64 → Int64 → Int64) (a b : Value) :
    Ensures WellKeyed (onBits op f a b) := by
  unfold onBits
  split <;> simp

include ha hb in
/-- A union has elements and keys of its operands. -/
theorem ensures_bitOr : Ensures WellKeyed (a.bitOr b) := by
  unfold bitOr
  split
  · simp
  · rw [wellKeyed_set] at ha hb
    refine ensures_ok_iff.mpr (wellKeyed_set.mpr (List.forall_mem_append.mpr ⟨ha, ?_⟩))
    exact fun x hx => hb x (List.mem_of_mem_filter hx)
  · rw [wellKeyed_dict] at ha hb
    exact ensures_ok_iff.mpr (wellKeyed_dict.mpr
      (forall_insertAll (P := fun k => k.isHashable = true ∧ k.WellKeyed) ha hb))
  · simp

include ha in
theorem ensures_bitAnd : Ensures WellKeyed (a.bitAnd b) := by
  unfold bitAnd
  split
  · simp
  · rw [wellKeyed_set] at ha
    exact ensures_ok_iff.mpr (wellKeyed_set.mpr fun x hx => ha x (List.mem_of_mem_filter hx))
  · simp

include ha hb in
theorem ensures_bitXor : Ensures WellKeyed (a.bitXor b) := by
  unfold bitXor
  split
  · simp
  · rw [wellKeyed_set] at ha hb
    refine ensures_ok_iff.mpr (wellKeyed_set.mpr (List.forall_mem_append.mpr ⟨?_, ?_⟩))
    · exact fun x hx => ha x (List.mem_of_mem_filter hx)
    · exact fun x hx => hb x (List.mem_of_mem_filter hx)
  · simp

theorem ensures_shiftLeft (a b : Value) : Ensures WellKeyed (a.shiftLeft b) := by
  unfold shiftLeft
  split
  · split
    · simp
    · split
      · simp
      · split <;> simp
  · simp

theorem ensures_shiftRight (a b : Value) : Ensures WellKeyed (a.shiftRight b) := by
  unfold shiftRight
  split
  · split <;> simp
  · simp

theorem ensures_compareBy (mode : Mode) (op : BinaryOp) (a b : Value) :
    Ensures WellKeyed (compareBy mode op a b) := by
  unfold compareBy
  split
  · simp
  · refine ensures_bind fun o => ?_
    split <;> simp

theorem ensures_holdsItem (a b : Value) : Ensures WellKeyed (a.holdsItem b) := by
  unfold holdsItem
  split
  · simp
  all_goals first | exact ensures_map fun _ => wellKeyed_bool _ | simp

include ha in
theorem wellKeyed_asChoice (mode : Mode) : (a.asChoice mode).WellKeyed := by
  cases mode with
  | standard => exact wellKeyed_bool _
  | python => exact ha

include ha hb in
theorem ensures_binary (mode : Mode) (op : BinaryOp) : Ensures WellKeyed (binary mode op a b) := by
  cases op with
  | or | and => exact ensures_ok_iff.mpr (wellKeyed_asChoice hb mode)
  | eq | ne | is | isNot => exact ensures_ok_iff.mpr (wellKeyed_bool _)
  | lt | le | gt | ge => exact ensures_compareBy mode _ a b
  | isIn | notIn => exact ensures_map fun _ => wellKeyed_bool _
  | contains => exact ensures_holdsItem a b
  | bitOr => exact ensures_bitOr ha hb
  | bitXor => exact ensures_bitXor ha hb
  | bitAnd => exact ensures_bitAnd ha
  | shl => exact ensures_shiftLeft a b
  | shr => exact ensures_shiftRight a b
  | add => exact ensures_add ha hb
  | sub => exact ensures_sub ha
  | mul => exact ensures_mul ha hb
  | div => exact ensures_trueDiv a b
  | floorDiv => exact ensures_floorDiv a b
  | mod => exact ensures_mod a b
  | pow => exact ensures_pow a b

theorem ensures_unary (mode : Mode) (op : UnaryOp) (v : Value) :
    Ensures WellKeyed (unary mode op v) := by
  cases op with
  | not => exact ensures_ok_iff.mpr (wellKeyed_bool _)
  | neg =>
    change Ensures WellKeyed v.neg
    unfold neg
    split <;> simp
  | pos =>
    change Ensures WellKeyed v.pos
    unfold pos
    split <;> simp
  | invert =>
    change Ensures WellKeyed v.invert
    unfold invert
    split <;> simp

end

/-! ### Members and items -/

theorem wellKeyed_of_mem_characters {s : String} : ∀ x ∈ characters s, x.WellKeyed := by
  intro x hx
  obtain ⟨c, -, rfl⟩ := List.mem_map.mp hx
  exact wellKeyed_str _

theorem ensures_iterate {v : Value} (h : v.WellKeyed) :
    Ensures (fun xs => ∀ x ∈ xs, x.WellKeyed) v.iterate := by
  unfold iterate
  split
  · exact ensures_ok_iff.mpr (wellKeyed_list.mp h)
  · exact ensures_ok_iff.mpr (wellKeyed_tuple.mp h)
  · exact ensures_ok_iff.mpr fun x hx => (wellKeyed_set.mp h x hx).2
  · refine ensures_ok_iff.mpr (List.forall_mem_map.mpr fun e he => ?_)
    exact (wellKeyed_dict.mp h e he).1.2
  · exact ensures_ok_iff.mpr wellKeyed_of_mem_characters
  · exact ensures_fail _ _

theorem mem_of_itemAt? {items : List α} {i : Int64} {x : α} (h : itemAt? items i = some x) :
    x ∈ items := by
  unfold itemAt? at h
  exact List.mem_of_getElem? (Option.ite_none_right_eq_some.mp h).2

theorem exists_of_lookup? {key v : Value} {es : List (Value × Value)}
    (h : key.lookup? es = some v) : ∃ e ∈ es, e.2 = v := by
  obtain ⟨e, he, rfl⟩ := Option.map_eq_some_iff.mp h
  exact ⟨e, List.mem_of_find?_eq_some he, rfl⟩

theorem wellKeyed_of_item? {base key v : Value} (h : base.WellKeyed)
    (hv : base.item? key = some v) : v.WellKeyed := by
  have hat : ∀ {xs : List Value}, (∀ x ∈ xs, x.WellKeyed) →
      key.asInt?.bind (itemAt? xs) = some v → v.WellKeyed := by
    intro xs hxs h
    obtain ⟨i, -, hi⟩ := Option.bind_eq_some_iff.mp h
    exact hxs v (mem_of_itemAt? hi)
  unfold item? at hv
  split at hv
  · obtain ⟨e, he, rfl⟩ := exists_of_lookup? hv
    exact (wellKeyed_dict.mp h e he).2
  · exact hat (wellKeyed_list.mp h) hv
  · exact hat (wellKeyed_tuple.mp h) hv
  · exact hat wellKeyed_of_mem_characters hv
  · obtain ⟨e, he, rfl⟩ := exists_of_lookup? hv
    exact (wellKeyed_object.mp h).2 e he
  · cases hv

theorem mem_of_lookup [BEq α] [LawfulBEq α] {key : α} {value : β} {entries : List (α × β)}
    (h : entries.lookup key = some value) : (key, value) ∈ entries := by
  obtain ⟨before, after, rfl, -⟩ := List.lookup_eq_some_iff.mp h
  simp

theorem wellKeyed_of_attribute? {attrs : List (String × Value)} {name : String} {v : Value}
    (h : ∀ a ∈ attrs, a.2.WellKeyed) (hv : attribute? attrs name = some v) : v.WellKeyed :=
  h (name, v) (mem_of_lookup hv)

theorem wellKeyed_of_namedItem? {base v : Value} {name : String} (h : base.WellKeyed)
    (hv : base.namedItem? name = some v) : v.WellKeyed := by
  unfold namedItem? at hv
  split at hv
  · next w hw =>
    cases hv
    exact wellKeyed_of_item? h hw
  · obtain ⟨i, -, hi⟩ := Option.bind_eq_some_iff.mp hv
    exact wellKeyed_of_item? h hi

theorem wellKeyed_of_sequenceMember? {base v : Value} {name : String} (h : base.WellKeyed)
    (hv : base.sequenceMember? name = some v) : v.WellKeyed := by
  unfold sequenceMember? at hv
  split at hv
  · obtain ⟨n, -, rfl⟩ := Option.map_eq_some_iff.mp hv
    exact wellKeyed_int _
  · split at hv
    · exact wellKeyed_of_item? h hv
    · split at hv
      · exact wellKeyed_of_item? h hv
      · cases hv

/-- The first of two values that is there. -/
theorem orElse_some {P : α → Prop} {x y : Option α} (hx : ∀ a, x = some a → P a)
    (hy : ∀ a, y = some a → P a) : ∀ a, (x <|> y) = some a → P a := by
  intro a h
  cases x with
  | none => exact hy a h
  | some b => exact hx a h

theorem ensures_member (mode : Mode) (site : Site) {base : Value} (h : base.WellKeyed)
    (name : String) : Ensures WellKeyed (base.member mode site name) := by
  unfold member
  dsimp only
  split
  · next v hv =>
    refine ensures_ok_iff.mpr (orElse_some ?_ (orElse_some ?_ (orElse_some ?_ ?_)) v hv)
    · intro w hw
      split at hw
      · exact wellKeyed_of_attribute? (wellKeyed_object.mp h).1 hw
      · cases hw
    · intro w hw
      split at hw
      · obtain ⟨m, -, rfl⟩ := Option.map_eq_some_iff.mp hw
        exact wellKeyed_method.mpr h
      · cases hw
    · exact fun w hw => wellKeyed_of_namedItem? h hw
    · intro w hw
      split at hw
      · cases hw
      · exact wellKeyed_of_sequenceMember? h hw
  · exact ensures_fail _ _

theorem ensures_itemOrAttribute {base : Value} (h : base.WellKeyed) (key : Value) :
    Ensures WellKeyed (base.itemOrAttribute key) := by
  unfold itemOrAttribute
  dsimp only
  split
  · next v hv =>
    refine ensures_ok_iff.mpr (orElse_some (fun w hw => wellKeyed_of_item? h hw) ?_ v hv)
    intro w hw
    split at hw
    · exact wellKeyed_of_attribute? (wellKeyed_object.mp h).1 hw
    · cases hw
  · exact ensures_fail _ _

theorem ensures_sliceItems (items : List α) (i j k : Option Int64) :
    Ensures (fun xs => ∀ x ∈ xs, x ∈ items) (sliceItems items i j k) := by
  unfold sliceItems
  dsimp only
  split
  · exact ensures_fail _ _
  · refine ensures_ok_iff.mpr fun x hx => ?_
    obtain ⟨n, -, hn⟩ := List.mem_filterMap.mp hx
    exact List.mem_of_getElem? hn

theorem ensures_slice {base : Value} (h : base.WellKeyed) (i j k : Option Int64) :
    Ensures WellKeyed (base.slice i j k) := by
  unfold slice
  split
  · exact ensures_map fun _ => wellKeyed_str _
  · exact (ensures_sliceItems _ i j k).map fun xs hxs =>
      wellKeyed_list.mpr fun x hx => wellKeyed_list.mp h x (hxs x hx)
  · exact (ensures_sliceItems _ i j k).map fun xs hxs =>
      wellKeyed_tuple.mpr fun x hx => wellKeyed_tuple.mp h x (hxs x hx)
  · exact ensures_fail _ _

theorem ensures_sort (items : List Value) :
    Ensures (fun xs => ∀ x ∈ xs, x ∈ items) (sort items) := by
  refine ensures_bind fun _ => ensures_pure_iff.mpr fun x hx => ?_
  simpa using (foldl_insertDescending_perm items []).mem_iff.mp (List.mem_reverse.mp hx)

theorem ensures_hashable (v : Value) :
    Ensures (fun w => w = v ∧ v.isHashable = true) v.hashable := by
  unfold hashable
  split
  · next h => exact ensures_ok_iff.mpr ⟨rfl, h⟩
  · exact ensures_fail _ _

end Value

end TemplateEngine
