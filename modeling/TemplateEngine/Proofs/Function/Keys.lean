import TemplateEngine.Proofs.Value.Keys

/-!
# Elements and keys of what functions give

Functions, methods and the standard filters give well-keyed values for well-keyed operands.  The
functions `set` and `dict` are different, for they take any items as elements and keys
(`Builtin.ensures_apply`).
-/

namespace TemplateEngine
open Value

/-! ### Functions -/

namespace Builtin

theorem wellKeyed_head? {args : List Value} (h : ∀ x ∈ args, x.WellKeyed) {v : Value}
    (hv : args.head? = some v) : v.WellKeyed :=
  h v (List.mem_of_mem_head? hv)

theorem wellKeyed_getD {args : List Value} (h : ∀ x ∈ args, x.WellKeyed) (i : Nat) {d : Value}
    (hd : d.WellKeyed) : (args.getD i d).WellKeyed := by
  rw [List.getD_eq_getElem?_getD]
  cases he : args[i]? with
  | none => exact hd
  | some v => exact h v (List.mem_of_getElem? he)

theorem ensures_rangeOf (args : List Value) : Ensures WellKeyed (rangeOf args) := by
  unfold rangeOf
  refine ensures_bind fun _ => ensures_bind fun bounds => ?_
  split
  split
  · exact ensures_fail _ _
  · refine ensures_pure_iff.mpr (wellKeyed_list.mpr (List.forall_mem_map.mpr fun i _ => ?_))
    exact wellKeyed_int _

theorem ensures_lengthOf (v : Value) : Ensures WellKeyed (lengthOf v) := by
  unfold lengthOf
  split <;> simp

theorem ensures_itemsOf {args : List Value} (h : ∀ x ∈ args, x.WellKeyed) :
    Ensures (fun xs => ∀ x ∈ xs, x.WellKeyed) (itemsOf args) := by
  unfold itemsOf
  split
  · next v hv => exact ensures_iterate (wellKeyed_head? h hv)
  · exact ensures_ok_iff.mpr (List.forall_mem_nil _)

theorem ensures_pairOf {item : Value} (h : item.WellKeyed) :
    Ensures (fun e => e.1.WellKeyed ∧ e.2.WellKeyed) (pairOf item) := by
  refine (ensures_iterate h).bind fun xs hxs => ?_
  split
  · exact ensures_pure_iff.mpr ⟨hxs _ (by simp), hxs _ (by simp)⟩
  · exact ensures_fail _ _

theorem ensures_dictOf {args : List Value} (h : ∀ x ∈ args, x.WellKeyed) :
    Ensures (fun v => ∃ es, v = .dict es ∧ ∀ e ∈ es, e.1.WellKeyed ∧ e.2.WellKeyed)
      (dictOf args) := by
  unfold dictOf
  split
  · exact ensures_ok_iff.mpr ⟨[], rfl, List.forall_mem_nil _⟩
  · next es hes =>
    have hdict := wellKeyed_dict.mp (wellKeyed_head? h hes)
    exact ensures_ok_iff.mpr ⟨es, rfl, fun e he => ⟨(hdict e he).1.2, (hdict e he).2⟩⟩
  · next v _ hv =>
    refine (ensures_iterate (wellKeyed_head? h hv)).bind fun xs hxs => ?_
    refine (ensures_mapM fun x hx => ensures_pairOf (hxs x hx)).bind fun pairs hpairs => ?_
    exact ensures_pure_iff.mpr ⟨_, rfl, forall_insertAll (List.forall_mem_nil _) hpairs⟩

theorem ensures_absOf (v : Value) : Ensures WellKeyed (absOf v) := by
  unfold absOf
  split
  · simp
  · split <;> simp

/-- The item that is taken is one of the items. -/
theorem ensures_best {want : Ordering} {first : Value} {rest : List Value}
    (h : ∀ x ∈ first :: rest, x.WellKeyed) :
    Ensures WellKeyed (pure (rest.foldl (fun best x =>
      if x.totalOrder best = want then x else best) first) : Except Error Value) := by
  rw [List.forall_mem_cons] at h
  refine ensures_pure_iff.mpr (List.foldlRecOn rest _ h.1 fun best hb x hx => ?_)
  split
  · exact h.2 x hx
  · exact hb

theorem ensures_extreme (function : String) (want : Ordering) {args : List Value}
    (h : ∀ x ∈ args, x.WellKeyed) : Ensures WellKeyed (extreme function want args) := by
  refine ensures_bind fun _ => ?_
  -- the items are those of the only operand, or the operands
  split
  · refine (ensures_iterate (h _ (by simp))).bind fun xs hxs => ensures_bind fun _ => ?_
    split
    · exact ensures_fail _ _
    · exact ensures_best hxs
  · have hargs : Ensures (fun xs => ∀ x ∈ xs, x.WellKeyed) (.ok args : Except Error _) :=
      ensures_ok_iff.mpr h
    refine hargs.bind fun xs hxs => ensures_bind fun _ => ?_
    split
    · exact ensures_fail _ _
    · exact ensures_best hxs

theorem ensures_sumOf {items start : Value} (hi : items.WellKeyed) (hs : start.WellKeyed) :
    Ensures WellKeyed (sumOf items start) :=
  (ensures_iterate hi).bind fun _ hxs =>
    ensures_foldlM hs fun _ hb x hx => ensures_add hb (hxs x hx)

theorem ensures_number (start : Int64) {items : List Value} (h : ∀ x ∈ items, x.WellKeyed) :
    Ensures (fun xs => ∀ x ∈ xs, x.WellKeyed) (number start items) := by
  refine ensures_mapM fun x hx => ?_
  refine (ensures_ofExact _).bind fun i hi => ensures_pure_iff.mpr (wellKeyed_tuple.mpr ?_)
  rw [List.forall_mem_cons, List.forall_mem_singleton]
  exact ⟨hi, h _ (List.fst_mem_of_mem_zipIdx hx)⟩

theorem wellKeyed_of_mem_rows {columns : List (List Value)}
    (h : ∀ column ∈ columns, ∀ x ∈ column, x.WellKeyed) : ∀ x ∈ rows columns, x.WellKeyed := by
  intro x hx
  obtain ⟨i, -, rfl⟩ := List.mem_map.mp hx
  refine wellKeyed_tuple.mpr (List.forall_mem_map.mpr fun column hc => ?_)
  exact wellKeyed_getD (h column hc) i wellKeyed_nil

theorem ensures_roundOf (v : Value) (places : Option Int64) :
    Ensures WellKeyed (roundOf v places) := by
  unfold roundOf
  split
  · simp
  · exact ensures_bind fun _ => ensures_bind fun _ => ensures_pure_iff.mpr (wellKeyed_int _)
  · refine ensures_bind fun x => ?_
    split
    · exact ensures_fail _ _
    · exact ensures_pure_iff.mpr (wellKeyed_float _)

/-- The functions `set` and `dict`, which take any items as elements and keys. -/
def TakesAnyKey (f : Builtin) : Prop := f = .set ∨ f = .dict

/-- A call gives a well-keyed value, unless it is a call of `set` or `dict` that takes an unhashable
item as an element or a key. -/
theorem ensures_apply (f : Builtin) {args : List Value} (h : ∀ x ∈ args, x.WellKeyed) :
    Ensures (fun v => v.WellKeyed ∨ f.TakesAnyKey ∧ ¬ v.KeysHashable) (f.apply args) := by
  have harg := fun i => wellKeyed_getD h i wellKeyed_nil
  -- all other functions give well-keyed values
  have other : Ensures WellKeyed (f.apply args) →
      Ensures (fun v => v.WellKeyed ∨ f.TakesAnyKey ∧ ¬ v.KeysHashable) (f.apply args) :=
    fun hv => hv.imp fun _ => .inl
  have items : Ensures (fun xs => ∀ x ∈ xs, x.WellKeyed) (itemsOf args) := ensures_itemsOf h
  cases f with
  | set =>
    refine ensures_bind fun _ => items.bind fun xs hxs => ensures_pure_iff.mpr ?_
    by_cases hk : (Value.set (distinct xs)).KeysHashable
    · exact .inl (wellKeyed_iff.mpr ⟨hk, fun x hx => hxs x (mem_of_mem_distinct hx)⟩)
    · exact .inr ⟨.inl rfl, hk⟩
  | dict =>
    refine ensures_bind fun _ => (ensures_dictOf h).imp ?_
    rintro _ ⟨es, rfl, hes⟩
    by_cases hk : (Value.dict es).KeysHashable
    · exact .inl (wellKeyed_dict.mpr fun e he => ⟨⟨hk e he, (hes e he).1⟩, (hes e he).2⟩)
    · exact .inr ⟨.inr rfl, hk⟩
  | range => exact other (ensures_rangeOf args)
  | len => exact other (ensures_bind fun _ => ensures_lengthOf _)
  | int =>
    refine other (ensures_bind fun _ => ?_)
    split
    · exact ensures_bind fun _ => ensures_pure_iff.mpr (wellKeyed_int _)
    · exact ensures_pure_iff.mpr (wellKeyed_int _)
  | float =>
    refine other (ensures_bind fun _ => ?_)
    split
    · exact ensures_bind fun _ => ensures_pure_iff.mpr (wellKeyed_float _)
    · exact ensures_pure_iff.mpr (wellKeyed_float _)
  | str => exact other (ensures_bind fun _ => ensures_pure_iff.mpr (wellKeyed_str _))
  | bool => exact other (ensures_bind fun _ => ensures_pure_iff.mpr (wellKeyed_bool _))
  | list =>
    exact other (ensures_bind fun _ => items.bind fun xs hxs =>
      ensures_pure_iff.mpr (wellKeyed_list.mpr hxs))
  | tuple =>
    exact other (ensures_bind fun _ => items.bind fun xs hxs =>
      ensures_pure_iff.mpr (wellKeyed_tuple.mpr hxs))
  | abs => exact other (ensures_bind fun _ => ensures_absOf _)
  | min => exact other (ensures_extreme _ _ h)
  | max => exact other (ensures_extreme _ _ h)
  | sum =>
    exact other (ensures_bind fun _ =>
      ensures_sumOf (harg 0) (wellKeyed_getD h 1 (wellKeyed_int _)))
  | sorted =>
    refine other (ensures_bind fun _ => (ensures_iterate (harg 0)).bind fun xs hxs => ?_)
    exact (ensures_sort xs).bind fun ys hys =>
      ensures_pure_iff.mpr (wellKeyed_list.mpr fun y hy => hxs y (hys y hy))
  | reversed =>
    refine other (ensures_bind fun _ => (ensures_iterate (harg 0)).bind fun xs hxs => ?_)
    exact ensures_pure_iff.mpr (wellKeyed_list.mpr fun x hx => hxs x (List.mem_reverse.mp hx))
  | enumerate =>
    have numbered : ∀ start, Ensures WellKeyed
        (do return .list (← number start (← (args.getD 0 .nil).iterate))) := by
      intro start
      refine (ensures_iterate (harg 0)).bind fun xs hxs => ?_
      exact (ensures_number start hxs).bind fun ys hys =>
        ensures_pure_iff.mpr (wellKeyed_list.mpr hys)
    refine other (ensures_bind fun _ => ?_)
    split
    · exact ensures_bind fun start => numbered start
    · exact numbered 0
  | zip =>
    refine other ((ensures_mapM fun x hx => ensures_iterate (h x hx)).bind fun columns hc => ?_)
    exact ensures_pure_iff.mpr (wellKeyed_list.mpr (wellKeyed_of_mem_rows hc))
  | round => exact other (ensures_bind fun _ => ensures_bind fun _ => ensures_roundOf _ _)
  | repr => exact other (ensures_bind fun _ => ensures_pure_iff.mpr (wellKeyed_str _))

end Builtin

namespace Method

theorem wellKeyed_strings (parts : List (List Char)) : (strings parts).WellKeyed :=
  wellKeyed_list.mpr (List.forall_mem_map.mpr fun _ _ => wellKeyed_str _)

theorem ensures_onDict (m : Method) {entries : List (Value × Value)} {args : List Value}
    (he : ∀ e ∈ entries, e.1.WellKeyed ∧ e.2.WellKeyed) (ha : ∀ x ∈ args, x.WellKeyed) :
    Ensures WellKeyed (onDict m entries args) := by
  unfold onDict
  split
  · refine ensures_bind fun _ => ensures_pure_iff.mpr (wellKeyed_list.mpr ?_)
    refine List.forall_mem_map.mpr fun e hmem => wellKeyed_tuple.mpr ?_
    rw [List.forall_mem_cons, List.forall_mem_singleton]
    exact he e hmem
  · exact ensures_bind fun _ => ensures_pure_iff.mpr (wellKeyed_list.mpr
      (List.forall_mem_map.mpr fun e hmem => (he e hmem).1))
  · exact ensures_bind fun _ => ensures_pure_iff.mpr (wellKeyed_list.mpr
      (List.forall_mem_map.mpr fun e hmem => (he e hmem).2))
  · refine ensures_bind fun _ => ensures_pure_iff.mpr ?_
    cases hv : (args.getD 0 .nil).lookup? entries with
    | none => exact Builtin.wellKeyed_getD ha 1 wellKeyed_nil
    | some v =>
      obtain ⟨e, hmem, rfl⟩ := exists_of_lookup? hv
      exact (he e hmem).2

theorem ensures_splitOf (s : List Char) (sep : Value) : Ensures WellKeyed (splitOf s sep) := by
  unfold splitOf
  split
  · exact ensures_pure_iff.mpr (wellKeyed_strings _)
  · refine ensures_bind fun _ => ?_
    split
    · exact ensures_fail _ _
    · exact ensures_pure_iff.mpr (wellKeyed_strings _)

theorem ensures_onStr (m : Method) (s : String) (args : List Value) :
    Ensures WellKeyed (onStr m s args) := by
  have text : ∀ t : String, Ensures WellKeyed (pure (.str t) : Except Error Value) :=
    fun t => ensures_pure_iff.mpr (wellKeyed_str t)
  have truth : ∀ b : Bool, Ensures WellKeyed (pure (.bool b) : Except Error Value) :=
    fun b => ensures_pure_iff.mpr (wellKeyed_bool b)
  unfold onStr
  dsimp only
  split
  · exact text _
  · exact text _
  · refine ensures_bind fun _ => ?_
    split
    · exact text _
    · exact ensures_bind fun _ => text _
  · exact ensures_bind fun _ => ensures_splitOf _ _
  · exact ensures_bind fun _ => ensures_bind fun _ => truth _
  · exact ensures_bind fun _ => ensures_bind fun _ => truth _
  · exact ensures_bind fun _ => ensures_bind fun _ => ensures_bind fun _ => text _
  · exact ensures_bind fun _ => ensures_bind fun _ => ensures_bind fun _ => text _

theorem ensures_onSequence (m : Method) (receiver : Value) (items args : List Value) :
    Ensures WellKeyed (onSequence m receiver items args) := by
  refine ensures_bind fun _ => ?_
  dsimp only
  split
  · split
    · exact ensures_pure_iff.mpr (wellKeyed_int _)
    · exact ensures_fail _ _
  · exact ensures_pure_iff.mpr (wellKeyed_int _)

theorem ensures_apply (m : Method) {receiver : Value} {args : List Value}
    (hr : receiver.WellKeyed) (ha : ∀ x ∈ args, x.WellKeyed) :
    Ensures WellKeyed (m.apply receiver args) := by
  unfold apply
  split
  · exact ensures_onDict m (fun e he => ⟨(wellKeyed_dict.mp hr e he).1.2,
      (wellKeyed_dict.mp hr e he).2⟩) ha
  · exact ensures_onStr m _ args
  · exact ensures_onSequence m _ _ args
  · exact ensures_onSequence m _ _ args
  · exact ensures_fail _ _

end Method

/-! ### Filters -/

/-- For well-keyed operands the filter gives well-keyed values. -/
def Filter.KeepsKeys (filter : Filter) : Prop :=
  ∀ v args, v.WellKeyed → (∀ x ∈ args, x.WellKeyed) → Ensures WellKeyed (filter v args)

namespace Filter

theorem keepsKeys_of_str {filter : Filter} (h : ∀ v args, Ensures (fun w => ∃ s, w = .str s)
    (filter v args)) : filter.KeepsKeys := by
  intro v args _ _
  refine (h v args).imp ?_
  rintro _ ⟨s, rfl⟩
  exact wellKeyed_str s

theorem ensures_string (cs : List Char) : Ensures (fun w => ∃ s, w = .str s) (string cs) :=
  ensures_ok_iff.mpr ⟨_, rfl⟩

theorem ensures_numberOf {v : Value} (h : v.WellKeyed) : Ensures WellKeyed (numberOf v) := by
  unfold numberOf
  split
  · split
    · simp
    · exact ensures_map fun _ => wellKeyed_float _
  · simp
  · split
    · exact ensures_ok_iff.mpr h
    · exact ensures_fail _ _

theorem ensures_argument (filter : String) {args : List Value} (h : ∀ x ∈ args, x.WellKeyed)
    (i : Nat) : Ensures WellKeyed (argument filter args i) := by
  unfold argument
  split
  · next v hv => exact ensures_ok_iff.mpr (h v (List.mem_of_getElem? hv))
  · exact ensures_fail _ _

theorem keepsKeys_arithmetic {op : Value → Value → Except Error Value}
    (h : ∀ a b, a.WellKeyed → b.WellKeyed → Ensures WellKeyed (op a b)) (filter : String) :
    (arithmetic filter op).KeepsKeys := by
  intro v args hv ha
  refine (ensures_numberOf hv).bind fun x hx => (ensures_argument filter ha 0).bind fun y hy => ?_
  exact (ensures_numberOf hy).bind fun y hy => h x y hx hy

theorem keepsKeys_join : join.KeepsKeys :=
  keepsKeys_of_str fun _ _ => ensures_bind fun _ => ensures_pure_iff.mpr ⟨_, rfl⟩

theorem keepsKeys_replace : replace.KeepsKeys :=
  keepsKeys_of_str fun _ _ => ensures_bind fun _ => ensures_string _

theorem keepsKeys_split : split.KeepsKeys := by
  intro v args _ _
  refine ensures_bind fun sep => ?_
  split
  · exact ensures_pure_iff.mpr (wellKeyed_list.mpr wellKeyed_of_mem_characters)
  · exact ensures_pure_iff.mpr (Method.wellKeyed_strings _)

theorem keepsKeys_reverse : reverse.KeepsKeys := by
  intro v args hv _
  unfold reverse
  split
  · exact ensures_ok_iff.mpr (wellKeyed_str _)
  · exact (ensures_iterate hv).map fun xs hxs =>
      wellKeyed_list.mpr fun x hx => hxs x (List.mem_reverse.mp hx)

theorem keepsKeys_orElse : orElse.KeepsKeys := by
  intro v args hv ha
  refine (ensures_argument _ ha 0).bind fun fallback hf => ensures_pure_iff.mpr ?_
  split
  · exact hf
  · exact hv

theorem keepsKeys_abs : abs.KeepsKeys := by
  intro v args _ _
  refine ensures_bind fun n => ?_
  split
  · exact ensures_pure_iff.mpr (wellKeyed_float _)
  · exact ensures_bind fun _ => ensures_ofExact _

theorem keepsKeys_sort :
    Filter.KeepsKeys fun v _ => do return .list (← Value.sort (← v.iterate)) := by
  intro v args hv _
  refine (ensures_iterate hv).bind fun xs hxs => (ensures_sort xs).bind fun ys hys => ?_
  exact ensures_pure_iff.mpr (wellKeyed_list.mpr fun y hy => hxs y (hys y hy))

theorem keepsKeys_uniq :
    Filter.KeepsKeys fun v _ => v.iterate.map fun items => .list (Value.distinct items) :=
  fun _ _ hv _ => (ensures_iterate hv).map fun _ hxs =>
    wellKeyed_list.mpr fun x hx => hxs x (mem_of_mem_distinct hx)

theorem wellKeyed_getD_item? {v key : Value} (h : v.WellKeyed) :
    ((v.item? key).getD .nil).WellKeyed := by
  cases hv : v.item? key with
  | none => exact wellKeyed_nil
  | some w => exact wellKeyed_of_item? h hv

/-- Every standard filter gives well-keyed values for well-keyed operands. -/
theorem keepsKeys_standard : ∀ entry ∈ standard, entry.2.KeepsKeys := by
  have text : ∀ f : Value → List Value → List Char,
      Filter.KeepsKeys fun v args => string (f v args) :=
    fun f => keepsKeys_of_str fun v args => ensures_string _
  simp only [standard, List.forall_mem_cons, List.not_mem_nil, false_implies, implies_true,
    and_true]
  refine ⟨?size, ?len, text _, text _, text _, text _, keepsKeys_join, keepsKeys_split, ?first,
    ?last, keepsKeys_reverse, keepsKeys_sort, keepsKeys_uniq, keepsKeys_orElse, ?append, ?prepend,
    keepsKeys_replace, ?plus, ?minus, ?times, keepsKeys_abs, ?string, ?str, ?int⟩
  case size => exact fun _ _ _ _ => ensures_ok_iff.mpr (wellKeyed_int _)
  case len => exact fun v _ _ _ => Builtin.ensures_lengthOf v
  case first => exact fun v _ hv _ => ensures_ok_iff.mpr (wellKeyed_getD_item? hv)
  case last => exact fun v _ hv _ => ensures_ok_iff.mpr (wellKeyed_getD_item? hv)
  case append => exact fun _ _ _ _ => ensures_bind fun _ => ensures_pure_iff.mpr (wellKeyed_str _)
  case prepend => exact fun _ _ _ _ => ensures_bind fun _ => ensures_pure_iff.mpr (wellKeyed_str _)
  case plus => exact keepsKeys_arithmetic (fun a b ha hb => ensures_add ha hb) _
  case minus => exact keepsKeys_arithmetic (fun a b ha _ => ensures_sub ha) _
  case times => exact keepsKeys_arithmetic (fun a b ha hb => ensures_mul ha hb) _
  case string => exact fun _ _ _ _ => ensures_ok_iff.mpr (wellKeyed_str _)
  case str => exact fun _ _ _ _ => ensures_ok_iff.mpr (wellKeyed_str _)
  case int => exact fun _ _ _ _ => ensures_map fun _ => wellKeyed_int _

end Filter

end TemplateEngine
