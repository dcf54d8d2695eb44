import TemplateEngine.Proofs.Expr.Dialects
import TemplateEngine.Proofs.Function.Keys

/-!
# Keys of evaluated sets and dicts

Displays of sets and dicts check their elements and keys, and every other operation builds sets and
dicts from elements and keys that it is given.  So an evaluation gives a well-keyed value, unless it
calls `set` or `dict` with an item or a key that is not hashable (`Expr.wellKeyed_of_eval`): these
two functions check nothing.

Which calls an evaluation makes is told without the code that makes them: `Expr.Part` are the
expressions that it evaluates on the way, and `Expr.Calls` the calls of built-in functions in them.
-/

namespace TemplateEngine
open Value

/-! ### Scopes and hosts -/

/-- The values of all variables are well keyed. -/
def Scope.WellKeyed (s : Scope) : Prop := ∀ frame ∈ s.frames, ∀ b ∈ frame, b.2.WellKeyed

@[simp] theorem Scope.wellKeyed_ofGlobals {mode : Mode} {globals : Frame} :
    (Scope.ofGlobals mode globals).WellKeyed ↔ ∀ b ∈ globals, b.2.WellKeyed := by
  simp [Scope.WellKeyed, Scope.frames, Scope.ofGlobals]

theorem Scope.WellKeyed.get? {s : Scope} (h : s.WellKeyed) {name : String} {v : Value}
    (hv : s.get? name = some v) : v.WellKeyed := by
  unfold Scope.get? at hv
  split at hv
  · next w hw =>
    cases hv
    obtain ⟨frame, hf, hget⟩ := List.exists_of_findSome?_eq_some hw
    exact h _ hf (name, v) (mem_of_lookup hget)
  · unfold Scope.builtin? at hv
    split at hv
    · cases hv
    · obtain ⟨f, -, rfl⟩ := Option.map_eq_some_iff.mp hv
      exact wellKeyed_builtin f

/-- What the host supplies gives well-keyed values for well-keyed operands, the standard filters
apart. -/
structure Host.KeepsKeys (host : Host) : Prop where
  filters : ∀ name filter, host.filters.get? name = some filter →
    Filter.standard.get? name = some filter ∨ filter.KeepsKeys
  call : ∀ identity name args, (∀ x ∈ args, x.WellKeyed) →
    Ensures WellKeyed (host.call identity name args)

/-- A host with the standard filters alone. -/
theorem Host.keepsKeys_of_standard {host : Host} (hf : host.filters = Filter.standard)
    (hc : ∀ identity name args, (∀ x ∈ args, x.WellKeyed) →
      Ensures WellKeyed (host.call identity name args)) : host.KeepsKeys :=
  ⟨fun _ _ h => .inl (hf ▸ h), hc⟩

theorem Host.KeepsKeys.filter {host : Host} (h : host.KeepsKeys) {name : String} {filter : Filter}
    (hf : host.filters.get? name = some filter) : filter.KeepsKeys := by
  rcases h.filters name filter hf with hs | hk
  · exact Filter.keepsKeys_standard (name, filter) (mem_of_lookup hs)
  · exact hk

theorem Host.KeepsKeys.callValue {host : Host} (h : host.KeepsKeys) {callee : Value}
    {args : List Value} (hc : callee.WellKeyed) (ha : ∀ x ∈ args, x.WellKeyed) :
    Ensures (fun v => v.WellKeyed ∨
      ∃ f, callee = .builtin f ∧ f.TakesAnyKey ∧ f.apply args = .ok v ∧ ¬ v.KeysHashable)
      (host.callValue callee args) := by
  unfold Host.callValue
  split
  · next f =>
    intro v hv
    exact (Builtin.ensures_apply f ha v hv).imp_right fun ⟨hf, hk⟩ => ⟨f, rfl, hf, hv, hk⟩
  · exact (Method.ensures_apply _ (wellKeyed_method.mp hc) ha).imp fun _ => .inl
  · exact (h.call _ _ _ ha).imp fun _ => .inl
  · exact ensures_fail _ _

namespace Expr

/-! ### The calls of an evaluation -/

section
variable (host : Host) (scope : Scope)

/-- An evaluation of the first expression at the first site that succeeds evaluates the second one
at the second site. -/
inductive Part : Site → Expr → Site → Expr → Prop where
  | listItem {site : Site} {items : List Expr} {i : Nat} {e : Expr} (h : items[i]? = some e) :
      Part site (.list items) (i :: site) e
  | tupleItem {site : Site} {items : List Expr} {i : Nat} {e : Expr} (h : items[i]? = some e) :
      Part site (.tuple items) (i :: site) e
  | setItem {site : Site} {items : List Expr} {i : Nat} {e : Expr} (h : items[i]? = some e) :
      Part site (.set items) (i :: site) e
  | dictKey {site : Site} {entries : List (Expr × Expr)} {i : Nat} {k v : Expr}
      (h : entries[i]? = some (k, v)) : Part site (.dict entries) (2 * i :: site) k
  | dictValue {site : Site} {entries : List (Expr × Expr)} {i : Nat} {k v : Expr}
      (h : entries[i]? = some (k, v)) : Part site (.dict entries) ((2 * i + 1) :: site) v
  | first (site : Site) (first last : Expr) : Part site (.range first last) (0 :: site) first
  | last (site : Site) (first last : Expr) : Part site (.range first last) (1 :: site) last
  | attrBase (site : Site) (base : Expr) (name : String) :
      Part site (.attr base name) (0 :: site) base
  | indexBase (site : Site) (base key : Expr) : Part site (.index base key) (0 :: site) base
  | indexKey (site : Site) (base key : Expr) : Part site (.index base key) (1 :: site) key
  | sliceBase (site : Site) (base : Expr) (start stop step : Option Expr) :
      Part site (.slice base start stop step) (0 :: site) base
  | sliceStart {site : Site} {base e : Expr} {start stop step : Option Expr}
      (h : start = some e) : Part site (.slice base start stop step) (1 :: site) e
  | sliceStop {site : Site} {base e : Expr} {start stop step : Option Expr} (h : stop = some e) :
      Part site (.slice base start stop step) (2 :: site) e
  | sliceStep {site : Site} {base e : Expr} {start stop step : Option Expr} (h : step = some e) :
      Part site (.slice base start stop step) (3 :: site) e
  | callee (site : Site) (callee : Expr) (args : List Expr) :
      Part site (.call callee args) (0 :: site) callee
  | argument {site : Site} {callee : Expr} {args : List Expr} {i : Nat} {e : Expr}
      (h : args[i]? = some e) : Part site (.call callee args) ((1 + i) :: site) e
  | operand (site : Site) (op : UnaryOp) (operand : Expr) :
      Part site (.unary op operand) (0 :: site) operand
  | left (site : Site) (op : BinaryOp) (left right : Expr) :
      Part site (.binary op left right) (0 :: site) left
  /-- The left operand does not decide. -/
  | right {site : Site} {op : BinaryOp} {left right : Expr} {a : Value}
      (ha : left.eval host scope (0 :: site) = .ok a) (hd : a.decided? scope.mode op = none) :
      Part site (.binary op left right) (1 :: site) right
  | cond (site : Site) (cond yes no : Expr) : Part site (.ternary cond yes no) (0 :: site) cond
  | yes {site : Site} {cond yes no : Expr} {c : Value}
      (hc : cond.eval host scope (0 :: site) = .ok c) (ht : c.truthy scope.mode = true) :
      Part site (.ternary cond yes no) (1 :: site) yes
  | no {site : Site} {cond yes no : Expr} {c : Value}
      (hc : cond.eval host scope (0 :: site) = .ok c) (ht : c.truthy scope.mode = false) :
      Part site (.ternary cond yes no) (2 :: site) no
  | filtered (site : Site) (value : Expr) (name : String) (args : List Expr) :
      Part site (.filter value name args) (0 :: site) value
  | filterArgument {site : Site} {value : Expr} {name : String} {args : List Expr} {i : Nat}
      {e : Expr} (h : args[i]? = some e) : Part site (.filter value name args) ((1 + i) :: site) e

/-- Evaluating the expression at the site calls the built-in function with these arguments, and the
call gives this value. -/
inductive Calls : Site → Expr → Builtin → List Value → Value → Prop where
  | call {site : Site} {callee : Expr} {args : List Expr} {f : Builtin} {vs : List Value}
      {w : Value} (hc : callee.eval host scope (0 :: site) = .ok (.builtin f))
      (ha : evalAll host scope site 1 args = .ok vs) (hw : f.apply vs = .ok w) :
      Calls site (.call callee args) f vs w
  /-- A function in scope that a value is passed through. -/
  | filter {site : Site} {value : Expr} {name : String} {args : List Expr} {f : Builtin}
      {v w : Value} {vs : List Value} (hv : value.eval host scope (0 :: site) = .ok v)
      (ha : evalAll host scope site 1 args = .ok vs) (hn : host.filters.get? name = none)
      (hm : scope.mode = .python) (hf : scope.get? name = some (.builtin f))
      (hw : f.apply (v :: vs) = .ok w) : Calls site (.filter value name args) f (v :: vs) w
  | part {site site' : Site} {e e' : Expr} {f : Builtin} {vs : List Value} {w : Value}
      (hp : Part host scope site e site' e') (h : Calls site' e' f vs w) : Calls site e f vs w

/-- A call of `set` or `dict` in the evaluation gives a value with an unhashable element or key. -/
def MisusesKeys (site : Site) (e : Expr) : Prop :=
  ∃ f args w, f.TakesAnyKey ∧ Calls host scope site e f args w ∧ ¬ w.KeysHashable

end

/-! ### Evaluation -/

variable {host : Host} {scope : Scope} {site : Site}

theorem MisusesKeys.part {site' : Site} {e e' : Expr} (h : MisusesKeys host scope site' e')
    (hp : Part host scope site e site' e') : MisusesKeys host scope site e := by
  obtain ⟨f, args, w, hf, hc, hk⟩ := h
  exact ⟨f, args, w, hf, .part hp hc, hk⟩

/-- At every site the expression evaluates to a well-keyed value, unless `set` or `dict` is
misused. -/
def KeepsKeys (host : Host) (scope : Scope) (e : Expr) : Prop :=
  ∀ site, ¬ MisusesKeys host scope site e → Ensures WellKeyed (e.eval host scope site)

/-- A part of an expression without misuse. -/
theorem KeepsKeys.part {e e' : Expr} {site' : Site} (h : KeepsKeys host scope e')
    (hno : ¬ MisusesKeys host scope site e) (hp : Part host scope site e site' e') :
    Ensures WellKeyed (e'.eval host scope site') :=
  h site' fun hm => hno (hm.part hp)

theorem ensures_evalAll {es : List Expr} {n : Nat}
    (h : ∀ (i : Nat) (e : Expr), es[i]? = some e →
      Ensures WellKeyed (e.eval host scope ((n + i) :: site))) :
    Ensures (fun vs => ∀ v ∈ vs, v.WellKeyed) (evalAll host scope site n es) := by
  induction es generalizing n with
  | nil =>
    rw [evalAll]
    exact ensures_ok_iff.mpr (List.forall_mem_nil _)
  | cons e es ih =>
    rw [evalAll]
    refine (h 0 e rfl).bind fun v hv => ?_
    have more : Ensures (fun vs => ∀ v ∈ vs, v.WellKeyed) (evalAll host scope site (n + 1) es) := by
      refine ih fun i e' he => ?_
      rw [Nat.add_assoc, Nat.add_comm 1]
      exact h (i + 1) e' he
    exact more.bind fun vs hvs => ensures_pure_iff.mpr (List.forall_mem_cons.mpr ⟨hv, hvs⟩)

theorem ensures_evalEntries {es : List (Expr × Expr)} {n : Nat}
    (h : ∀ (i : Nat) (k v : Expr), es[i]? = some (k, v) →
      Ensures WellKeyed (k.eval host scope ((n + 2 * i) :: site)) ∧
        Ensures WellKeyed (v.eval host scope ((n + 2 * i + 1) :: site))) :
    Ensures EntriesWellKeyed (evalEntries host scope site n es) := by
  induction es generalizing n with
  | nil =>
    rw [evalEntries]
    exact ensures_ok_iff.mpr (List.forall_mem_nil _)
  | cons e es ih =>
    obtain ⟨k, v⟩ := e
    have hfirst := h 0 k v rfl
    rw [evalEntries]
    refine hfirst.1.bind fun a ha => (ensures_hashable a).bind fun key hkey => ?_
    obtain ⟨rfl, hh⟩ := hkey
    refine hfirst.2.bind fun b hb => ?_
    have more : Ensures EntriesWellKeyed (evalEntries host scope site (n + 2) es) := by
      refine ih fun i k' v' he => ?_
      have hn : n + 2 + 2 * i = n + 2 * (i + 1) := by omega
      rw [hn]
      exact h (i + 1) k' v' he
    exact more.bind fun vs hvs =>
      ensures_pure_iff.mpr (List.forall_mem_cons.mpr ⟨⟨⟨hh, ha⟩, hb⟩, hvs⟩)

/-- The values of some parts of an expression without misuse. -/
theorem ensures_parts {whole : Expr} {es : List Expr} {n : Nat}
    (h : ∀ e ∈ es, KeepsKeys host scope e) (hno : ¬ MisusesKeys host scope site whole)
    (hp : ∀ (i : Nat) (e : Expr), es[i]? = some e →
      Part host scope site whole ((n + i) :: site) e) :
    Ensures (fun vs => ∀ v ∈ vs, v.WellKeyed) (evalAll host scope site n es) :=
  ensures_evalAll fun i e he => (h e (List.mem_of_getElem? he)).part hno (hp i e he)

theorem wellKeyed_of_isScalar {v : Value} (h : v.IsScalar) : v.WellKeyed := by
  cases v <;> first | exact h.elim | simp

/-- The operand that decides `or` or `and` is the value, or its truth is. -/
theorem wellKeyed_of_decided? {mode : Mode} {op : BinaryOp} {a v : Value} (ha : a.WellKeyed)
    (h : a.decided? mode op = some v) : v.WellKeyed := by
  unfold decided? at h
  split at h
  · split at h <;> cases h
    exact wellKeyed_asChoice ha mode
  · split at h <;> cases h
    exact wellKeyed_asChoice ha mode
  · cases h

theorem ensures_applyFilter (hh : host.KeepsKeys) (hs : scope.WellKeyed) {name : String} {v : Value}
    {args : List Value} (hv : v.WellKeyed) (ha : ∀ x ∈ args, x.WellKeyed) :
    Ensures (fun w => w.WellKeyed ∨ ∃ f, host.filters.get? name = none ∧ scope.mode = .python ∧
        scope.get? name = some (.builtin f) ∧ f.TakesAnyKey ∧ f.apply (v :: args) = .ok w ∧
          ¬ w.KeysHashable)
      (host.applyFilter scope name v args) := by
  intro w hw
  unfold Host.applyFilter at hw
  split at hw
  · next filter hf => exact .inl (hh.filter hf v args hv ha w hw)
  · next hf =>
    obtain ⟨callee, hm, hget, hw⟩ : ∃ callee, scope.mode = .python ∧
        scope.get? name = some callee ∧ host.callValue callee (v :: args) = .ok w := by
      split at hw
      · next hm hget => exact ⟨_, hm, hget, hw⟩
      · next hm hget => exact ⟨_, hm, hget, hw⟩
      · next hm hget => exact ⟨_, hm, hget, hw⟩
      · cases hw
    have hcall := hh.callValue (hs.get? hget) (List.forall_mem_cons.mpr ⟨hv, ha⟩) w hw
    refine hcall.imp_right ?_
    rintro ⟨f, rfl, ht, happ, hk⟩
    exact ⟨f, hf, hm, hget, ht, happ, hk⟩

/-! ### The forms of expressions -/

theorem keepsKeys_literal {v : Value} (hv : v.IsScalar) : KeepsKeys host scope (.literal v) := by
  intro site _
  rw [eval]
  exact ensures_ok_iff.mpr (wellKeyed_of_isScalar hv)

theorem keepsKeys_list {items : List Expr} (h : ∀ e ∈ items, KeepsKeys host scope e) :
    KeepsKeys host scope (.list items) := by
  intro site hno
  rw [eval]
  refine (ensures_parts h hno fun i e he => ?_).bind fun vs hvs =>
    ensures_pure_iff.mpr (wellKeyed_list.mpr hvs)
  rw [Nat.zero_add]
  exact .listItem he

theorem keepsKeys_tuple {items : List Expr} (h : ∀ e ∈ items, KeepsKeys host scope e) :
    KeepsKeys host scope (.tuple items) := by
  intro site hno
  rw [eval]
  refine (ensures_parts h hno fun i e he => ?_).bind fun vs hvs =>
    ensures_pure_iff.mpr (wellKeyed_tuple.mpr hvs)
  rw [Nat.zero_add]
  exact .tupleItem he

/-- The elements of a display are checked. -/
theorem keepsKeys_set {items : List Expr} (h : ∀ e ∈ items, KeepsKeys host scope e) :
    KeepsKeys host scope (.set items) := by
  intro site hno
  rw [eval]
  refine (ensures_parts h hno fun i e he => ?_).bind fun vs hvs => ?_
  · rw [Nat.zero_add]
    exact .setItem he
  · have checked : Ensures (fun ws => ∀ w ∈ ws, w.isHashable = true ∧ w.WellKeyed)
        (vs.mapM hashable) := by
      refine ensures_mapM fun v hv => (ensures_hashable v).imp ?_
      rintro _ ⟨rfl, hk⟩
      exact ⟨hk, hvs _ hv⟩
    exact checked.bind fun ws hws => ensures_pure_iff.mpr (wellKeyed_set.mpr fun w hw =>
      hws w (mem_of_mem_distinct hw))

/-- The keys of a display are checked. -/
theorem keepsKeys_dict {entries : List (Expr × Expr)}
    (hk : ∀ e ∈ entries, KeepsKeys host scope e.1) (hv : ∀ e ∈ entries, KeepsKeys host scope e.2) :
    KeepsKeys host scope (.dict entries) := by
  intro site hno
  rw [eval]
  have hentries : Ensures EntriesWellKeyed (evalEntries host scope site 0 entries) := by
    refine ensures_evalEntries fun i k v he => ?_
    rw [Nat.zero_add]
    have hmem := List.mem_of_getElem? he
    exact ⟨(hk _ hmem).part hno (.dictKey he), (hv _ hmem).part hno (.dictValue he)⟩
  exact hentries.bind fun es hes => ensures_pure_iff.mpr (wellKeyed_dict.mpr
    (forall_insertAll (P := fun k => k.isHashable = true ∧ k.WellKeyed)
      (List.forall_mem_nil _) hes))

theorem keepsKeys_var (hs : scope.WellKeyed) (name : String) :
    KeepsKeys host scope (.var name) := by
  intro site _
  rw [eval]
  unfold Scope.lookup
  split
  · next v hv => exact ensures_ok_iff.mpr (hs.get? hv)
  · exact ensures_fail _ _

theorem keepsKeys_attr {base : Expr} (h : KeepsKeys host scope base) (name : String) :
    KeepsKeys host scope (.attr base name) := by
  intro site hno
  rw [eval]
  exact (h.part hno (.attrBase ..)).bind fun b hb => ensures_member _ _ hb name

theorem keepsKeys_index {base : Expr} (h : KeepsKeys host scope base) (key : Expr) :
    KeepsKeys host scope (.index base key) := by
  intro site hno
  rw [eval]
  exact (h.part hno (.indexBase ..)).bind fun b hb => ensures_bind fun key =>
    ensures_itemOrAttribute hb key

theorem keepsKeys_slice {base : Expr} (h : KeepsKeys host scope base)
    (start stop step : Option Expr) : KeepsKeys host scope (.slice base start stop step) := by
  intro site hno
  rw [eval]
  exact (h.part hno (.sliceBase ..)).bind fun b hb => ensures_bind fun i =>
    ensures_bind fun j => ensures_bind fun k => ensures_slice hb i j k

theorem keepsKeys_call (hh : host.KeepsKeys) {callee : Expr} {args : List Expr}
    (hc : KeepsKeys host scope callee) (h : ∀ e ∈ args, KeepsKeys host scope e) :
    KeepsKeys host scope (.call callee args) := by
  intro site hno v hv
  rw [eval] at hv
  obtain ⟨f, hf, hv⟩ := bind_eq_ok_iff.mp hv
  obtain ⟨vs, hvs, hv⟩ := bind_eq_ok_iff.mp hv
  have hwf := hc.part hno (.callee ..) f hf
  have hwvs := ensures_parts h hno (fun i e he => .argument he) vs hvs
  rcases hh.callValue hwf hwvs v hv with hw | ⟨g, rfl, ht, hw, hk⟩
  · exact hw
  · exact absurd ⟨g, vs, v, ht, .call hf hvs hw, hk⟩ hno

theorem keepsKeys_unary (op : UnaryOp) (operand : Expr) :
    KeepsKeys host scope (.unary op operand) := by
  intro site _
  rw [eval]
  exact ensures_bind fun v => ensures_unary _ op v

/-- The right operand matters when the left one does not decide. -/
theorem keepsKeys_binary (hm : scope.mode = .python) (op : BinaryOp) {left right : Expr}
    (hl : KeepsKeys host scope left) (hr : KeepsKeys host scope right) :
    KeepsKeys host scope (.binary op left right) := by
  intro site hno v hv
  have hmode : scope.mode ≠ .standard := by
    rw [hm]
    decide
  rw [eval, if_neg fun h => hmode h.1, if_neg fun h => hmode h.1] at hv
  obtain ⟨a, ha, hv⟩ := bind_eq_ok_iff.mp hv
  have hwa := hl.part hno (.left ..) a ha
  cases hd : a.decided? scope.mode op with
  | some w =>
    rw [hd] at hv
    cases hv
    exact wellKeyed_of_decided? hwa hd
  | none =>
    rw [hd] at hv
    obtain ⟨b, hb, hv⟩ := bind_eq_ok_iff.mp hv
    exact ensures_binary hwa (hr.part hno (.right ha hd) b hb) _ op v hv

theorem keepsKeys_ternary (cond : Expr) {yes no : Expr} (hy : KeepsKeys host scope yes)
    (hn : KeepsKeys host scope no) : KeepsKeys host scope (.ternary cond yes no) := by
  intro site hno v hv
  rw [eval] at hv
  obtain ⟨c, hc, hv⟩ := bind_eq_ok_iff.mp hv
  split at hv
  · next ht => exact hy.part hno (.yes hc ht) v hv
  · next ht => exact hn.part hno (.no hc (eq_false_of_ne_true ht)) v hv

theorem keepsKeys_filter (hh : host.KeepsKeys) (hs : scope.WellKeyed) {value : Expr}
    (name : String) {args : List Expr} (hv : KeepsKeys host scope value)
    (h : ∀ e ∈ args, KeepsKeys host scope e) :
    KeepsKeys host scope (.filter value name args) := by
  intro site hno w hw
  rw [eval] at hw
  obtain ⟨v, hval, hw⟩ := bind_eq_ok_iff.mp hw
  obtain ⟨vs, hvs, hw⟩ := bind_eq_ok_iff.mp hw
  have hwv := hv.part hno (.filtered ..) v hval
  have hwvs := ensures_parts h hno (fun i e he => .filterArgument he) vs hvs
  rcases ensures_applyFilter hh hs hwv hwvs w hw with hk | ⟨f, hn, hm, hget, ht, happ, hk⟩
  · exact hk
  · exact absurd ⟨f, _, w, ht, .filter hval hvs hn hm hget happ, hk⟩ hno

/-- An expression of the python dialect evaluates to a well-keyed value, unless `set` or `dict` is
misused. -/
theorem InDialect.keepsKeys (hh : host.KeepsKeys) (hs : scope.WellKeyed)
    (hm : scope.mode = .python) {e : Expr} (h : e.InDialect .python) : KeepsKeys host scope e := by
  induction h with
  | literal hv _ => exact keepsKeys_literal hv
  | list _ ih => exact keepsKeys_list ih
  | tuple _ _ ih => exact keepsKeys_tuple ih
  | set _ _ ih => exact keepsKeys_set ih
  | dict _ _ _ ihk ihv => exact keepsKeys_dict ihk ihv
  | range h _ _ _ _ => cases h
  | empty h => cases h
  | var name => exact keepsKeys_var hs name
  | attr _ name ih => exact keepsKeys_attr ih name
  | index _ _ ih _ => exact keepsKeys_index ih _
  | slice _ _ _ _ _ ih _ _ _ => exact keepsKeys_slice ih _ _ _
  | call _ _ _ ihc ih => exact keepsKeys_call hh ihc ih
  | unary _ op _ _ => exact keepsKeys_unary op _
  | binary _ _ _ ihl ihr => exact keepsKeys_binary hm _ ihl ihr
  | ternary _ _ _ _ _ ihy ihn => exact keepsKeys_ternary _ ihy ihn
  | filter _ name _ ihv ih => exact keepsKeys_filter hh hs name ihv ih

/-- Every value of a python expression is well keyed, unless the evaluation calls `set` or `dict`
with an item or a key that is not hashable.  Variables are well keyed, and what the host supplies
keeps that. -/
theorem wellKeyed_of_eval (hh : host.KeepsKeys) (hs : scope.WellKeyed) (hm : scope.mode = .python)
    {source : String} {base : Nat} {e : Expr} (hp : Expr.parse .python source base = .ok e)
    {v : Value} (hv : e.eval host scope site = .ok v) :
    v.WellKeyed ∨ MisusesKeys host scope site e := by
  by_cases hno : MisusesKeys host scope site e
  · exact .inr hno
  · exact .inl ((inDialect_of_parse hp).keepsKeys hh hs hm site hno v hv)

/-- A display of a set beside a dict that is made of pairs. -/
theorem wellKeyed_of_eval_pairs :
    let host : Host := ⟨Filter.standard, fun _ _ args => .ok (.tuple args), 1000⟩
    let scope := Scope.ofGlobals .python [("xs", .set [.int 2])]
    host.KeepsKeys ∧ scope.WellKeyed ∧ scope.mode = .python ∧
      ∃ e v, Expr.parse .python "[\x7b1\x7d, dict([('a', xs)])]" 0 = .ok e ∧
        e.eval host scope [] = .ok v ∧ (v.WellKeyed ∨ MisusesKeys host scope [] e) := by
  intro host scope
  have hh : host.KeepsKeys := Host.keepsKeys_of_standard rfl fun _ _ _ h =>
    ensures_ok_iff.mpr (wellKeyed_tuple.mpr h)
  have hs : scope.WellKeyed := by simp [scope, Value.isHashable]
  have hok : (Expr.parse .python "[\x7b1\x7d, dict([('a', xs)])]" 0 >>= fun e =>
      e.eval host scope []).isOk = true := by
    decide +kernel
  obtain ⟨v, hv⟩ := exists_of_isOk hok
  obtain ⟨e, he, hv⟩ := bind_eq_ok_iff.mp hv
  exact ⟨hh, hs, rfl, e, v, he, hv, wellKeyed_of_eval hh hs rfl he hv⟩

/-- `set` gives a set with a list as an element. -/
theorem not_wellKeyed_of_eval :
    ¬ ∀ (host : Host) (scope : Scope) (site : Site) (source : String) (base : Nat) (e : Expr)
      (v : Value), host.KeepsKeys → scope.WellKeyed → scope.mode = .python →
      Expr.parse .python source base = .ok e → e.eval host scope site = .ok v → v.WellKeyed := by
  intro h
  let host : Host := ⟨Filter.standard, fun _ _ args => .ok (.tuple args), 1000⟩
  let scope := Scope.ofGlobals .python []
  let run : Except Error Value :=
    Expr.parse .python "set([[1]])" 0 >>= fun e => e.eval host scope []
  have hok : run.isOk = true := by decide +kernel
  have hbad : run.toOption.any (fun v => !decide v.KeysHashable) = true := by decide +kernel
  obtain ⟨v, hv⟩ := exists_of_isOk hok
  have hbad : ¬ v.KeysHashable := by simpa [hv, Except.toOption] using hbad
  obtain ⟨e, he, hv⟩ := bind_eq_ok_iff.mp hv
  have hh : host.KeepsKeys := Host.keepsKeys_of_standard rfl fun _ _ _ h =>
    ensures_ok_iff.mpr (wellKeyed_tuple.mpr h)
  have hk : v.WellKeyed := h host scope [] _ 0 e v hh (by simp [scope]) rfl he hv
  exact hbad (wellKeyed_iff.mp hk).1

end Expr

end TemplateEngine
