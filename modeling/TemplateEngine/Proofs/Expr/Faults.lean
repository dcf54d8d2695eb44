import Mathlib.Tactic.Common
import TemplateEngine.Expr.Eval

/-!
# Where the errors of expressions come from

Evaluation does not know where in the template it happens: whatever fails in it fails with a render
fault that has no place yet, and the node that asked for the value adds its own.  None of these
faults is that of a tag, unless a function or a filter of the host fails with it (`Attributed`).
That holds of operators, functions, methods and the standard filters, so it holds of every
expression (`Expr.attributed_eval`).  On a host whose own functions and filters fail without a place
as well, every expression does (`Expr.unplaced_eval`).

The lemmas on single functions are tagged for `grind`: a function fails with `fail`, or as one of
the functions that it calls does.
-/

namespace TemplateEngine

variable {α β : Type}

/-! ### Where errors come from -/

/-- The fault is that of a tag whose head has another form than the tag can use. -/
@[grind] def RenderFault.IsMisfit : RenderFault → Prop
  | .needsExpression _ | .needsName _ | .needsLoopHead | .needsAssignment => True
  | _ => False

/-- A function of the host, or a filter that is no standard one, fails with this error. -/
inductive Host.Raises (host : Host) (e : Error) : Prop where
  | call {identity : Nat} {name : String} {args : List Value}
      (h : host.call identity name args = .error e)
  | filter {name : String} {filter : Filter} {v : Value}
      {args : List Value} (hf : host.filters.get? name = some filter)
      (hs : (name, filter) ∉ Filter.standard) (h : filter v args = .error e)

theorem FilterTable.mem_of_get? {table : FilterTable} {name : String} {filter : Filter}
    (h : table.get? name = some filter) : (name, filter) ∈ table := by
  rw [get?, List.lookup_eq_some_iff] at h
  obtain ⟨before, after, he, -⟩ := h
  simp [he]

/-- Every error of the result is a fault without a place, and not that of a tag, or is raised by the
host. -/
def Attributed (host : Host) (x : Except Error α) : Prop :=
  ∀ e, x = .error e → (∃ f, e = .failed f ∧ ¬f.IsMisfit) ∨ host.Raises e

variable {host : Host}

/-! ### Steps -/

@[grind .] theorem attributed_ok (a : α) : Attributed host (.ok a) := by
  intro e h
  cases h

@[grind .] theorem attributed_pure (a : α) : Attributed host (pure a) := attributed_ok a

@[grind ←] theorem attributed_fail {f : RenderFault} (hf : ¬f.IsMisfit) :
    Attributed host (fail f : Except Error α) := by
  intro e h
  cases h
  exact .inl ⟨f, rfl, hf⟩

@[grind ←] theorem Attributed.bind {x : Except Error α} {f : α → Except Error β}
    (hx : Attributed host x) (hf : ∀ a, Attributed host (f a)) : Attributed host (x >>= f) := by
  cases x with
  | error e =>
    intro e' h
    cases h
    exact hx e rfl
  | ok a => exact hf a

@[grind ←] theorem Attributed.map {x : Except Error α} {f : α → β}
    (hx : Attributed host x) : Attributed host (x.map f) := by
  cases x with
  | error e =>
    intro e' h
    cases h
    exact hx e rfl
  | ok a => exact attributed_ok (f a)

@[grind ←] theorem attributed_mapM {f : α → Except Error β} (h : ∀ a, Attributed host (f a))
    (xs : List α) : Attributed host (xs.mapM f) := by
  induction xs with
  | nil => exact attributed_pure []
  | cons x xs ih =>
    rw [List.mapM_cons]
    exact (h x).bind fun a => ih.bind fun as => attributed_pure _

@[grind ←] theorem attributed_foldlM {f : β → α → Except Error β}
    (h : ∀ b a, Attributed host (f b a)) (xs : List α) (b : β) :
    Attributed host (xs.foldlM f b) := by
  induction xs generalizing b with
  | nil => exact attributed_pure b
  | cons x xs ih =>
    rw [List.foldlM_cons]
    exact (h b x).bind fun b' => ih b'

@[grind ←] theorem attributed_forM {f : α → Except Error PUnit} (h : ∀ a, Attributed host (f a))
    (xs : List α) : Attributed host (xs.forM f) := by
  induction xs with
  | nil => exact attributed_pure _
  | cons x xs ih => exact (h x).bind fun _ => ih

/-! ### Operators -/

namespace Value

@[grind .] theorem attributed_iterate (v : Value) : Attributed host v.iterate := by
  unfold iterate
  grind

@[grind .] theorem attributed_contains (v item : Value) : Attributed host (v.contains item) := by
  unfold contains
  grind

@[grind .] theorem attributed_ofExact (i : Int) : Attributed host (ofExact i) := by
  unfold ofExact
  grind

@[grind .] theorem attributed_unsupported (op : String) (a b : Value) :
    Attributed host (unsupported op a b) := by
  unfold unsupported
  grind

@[grind .] theorem attributed_arithmetic (f : Int → Int → Int) (g : Binary64 → Binary64 → Binary64)
    (x y : Numeric) : Attributed host (arithmetic f g x y) := by
  unfold arithmetic
  grind

@[grind .] theorem attributed_add (a b : Value) : Attributed host (a.add b) := by
  unfold add
  grind

@[grind .] theorem attributed_sub (a b : Value) : Attributed host (a.sub b) := by
  unfold sub
  grind

@[grind .] theorem attributed_mul (a b : Value) : Attributed host (a.mul b) := by
  unfold mul
  grind

@[grind .] theorem attributed_trueDiv (a b : Value) : Attributed host (a.trueDiv b) := by
  unfold trueDiv
  grind

@[grind .] theorem attributed_floorDiv (a b : Value) : Attributed host (a.floorDiv b) := by
  unfold floorDiv
  grind

@[grind .] theorem attributed_mod (a b : Value) : Attributed host (a.mod b) := by
  unfold mod
  grind

@[grind .] theorem attributed_pow (a b : Value) : Attributed host (a.pow b) := by
  unfold pow
  grind

@[grind .] theorem attributed_onBits (op : String) (f : Int64 → Int64 → Int64) (a b : Value) :
    Attributed host (onBits op f a b) := by
  unfold onBits
  grind

@[grind .] theorem attributed_bitOr (a b : Value) : Attributed host (a.bitOr b) := by
  unfold bitOr
  grind

@[grind .] theorem attributed_bitAnd (a b : Value) : Attributed host (a.bitAnd b) := by
  unfold bitAnd
  grind

@[grind .] theorem attributed_bitXor (a b : Value) : Attributed host (a.bitXor b) := by
  unfold bitXor
  grind

@[grind .] theorem attributed_shiftLeft (a b : Value) : Attributed host (a.shiftLeft b) := by
  unfold shiftLeft
  grind

@[grind .] theorem attributed_shiftRight (a b : Value) : Attributed host (a.shiftRight b) := by
  unfold shiftRight
  grind

@[grind .] theorem attributed_neg (v : Value) : Attributed host v.neg := by
  unfold neg
  grind

@[grind .] theorem attributed_pos (v : Value) : Attributed host v.pos := by
  unfold pos
  grind

@[grind .] theorem attributed_invert (v : Value) : Attributed host v.invert := by
  unfold invert
  grind

@[grind .] theorem attributed_toInt (v : Value) : Attributed host v.toInt := by
  unfold toInt
  grind

@[grind .] theorem attributed_toFloat (v : Value) : Attributed host v.toFloat := by
  unfold toFloat
  grind

@[grind .] theorem attributed_hashable (v : Value) : Attributed host v.hashable := by
  unfold hashable
  grind

@[grind .] theorem attributed_sliceBound (v : Value) : Attributed host v.sliceBound := by
  unfold sliceBound
  grind

mutual

theorem attributed_order? (op : String) : ∀ v w : Value, Attributed host (order? op v w)
  | v, w => by
    cases v <;> cases w <;> simp only [order?, notOrdered] <;> first
      | exact attributed_orderAll? op _ _
      | grind

theorem attributed_orderAll? (op : String) :
    ∀ vs ws : List Value, Attributed host (orderAll? op vs ws)
  | [], ws => by
    rw [orderAll?]
    exact attributed_ok _
  | x :: xs, [] => by
    rw [orderAll?]
    exact attributed_ok _
  | x :: xs, y :: ys => by
    rw [orderAll?]
    split
    · exact attributed_orderAll? op xs ys
    · exact attributed_order? op x y

end

grind_pattern attributed_order? => Attributed host (order? op v w)

@[grind .] theorem attributed_compareBy (mode : Mode) (op : BinaryOp) (a b : Value) :
    Attributed host (compareBy mode op a b) := by
  unfold compareBy
  grind

@[grind .] theorem attributed_holdsItem (a b : Value) : Attributed host (a.holdsItem b) := by
  unfold holdsItem
  grind

@[grind .] theorem attributed_binary (mode : Mode) (op : BinaryOp) (a b : Value) :
    Attributed host (binary mode op a b) := by
  unfold binary
  grind

@[grind .] theorem attributed_unary (mode : Mode) (op : UnaryOp) (v : Value) :
    Attributed host (unary mode op v) := by
  unfold unary
  grind

/-! ### Members and items -/

@[grind .] theorem attributed_member (mode : Mode) (site : Site) (v : Value) (name : String) :
    Attributed host (member mode site v name) := by
  unfold member
  grind

@[grind .] theorem not_isMisfit_missingItem (base key : Value) :
    ¬(missingItem base key).IsMisfit := by
  unfold missingItem
  grind

@[grind .] theorem attributed_itemOrAttribute (v key : Value) :
    Attributed host (v.itemOrAttribute key) := by
  unfold itemOrAttribute
  grind

@[grind .] theorem attributed_sliceItems {α : Type} (items : List α) (i j k : Option Int64) :
    Attributed host (sliceItems items i j k) := by
  unfold sliceItems
  grind

@[grind .] theorem attributed_slice (v : Value) (i j k : Option Int64) :
    Attributed host (v.slice i j k) := by
  unfold slice
  grind

@[grind .] theorem attributed_checkComparable (items : List Value) :
    Attributed host (checkComparable items) := by
  unfold checkComparable notOrdered
  grind

@[grind .] theorem attributed_sort (items : List Value) : Attributed host (sort items) := by
  unfold sort
  grind

end Value

/-! ### Functions -/

namespace Arguments

@[grind .] theorem attributed_between (function : String) (least most : Nat) (args : List Value) :
    Attributed host (between function least most args) := by
  unfold between
  grind

@[grind .] theorem attributed_atLeast (function : String) (least : Nat) (args : List Value) :
    Attributed host (atLeast function least args) := by
  unfold atLeast
  grind

@[grind .] theorem attributed_int (function : String) (v : Value) :
    Attributed host (int function v) := by
  unfold int
  grind

@[grind .] theorem attributed_str (function : String) (v : Value) :
    Attributed host (str function v) := by
  unfold str
  grind

end Arguments

namespace Builtin

@[grind .] theorem attributed_rangeOf (args : List Value) : Attributed host (rangeOf args) := by
  unfold rangeOf
  grind

@[grind .] theorem attributed_lengthOf (v : Value) : Attributed host (lengthOf v) := by
  unfold lengthOf
  grind

@[grind .] theorem attributed_itemsOf (args : List Value) : Attributed host (itemsOf args) := by
  unfold itemsOf
  grind

@[grind .] theorem attributed_pairOf (item : Value) : Attributed host (pairOf item) := by
  unfold pairOf
  grind

@[grind .] theorem attributed_dictOf (args : List Value) : Attributed host (dictOf args) := by
  unfold dictOf
  grind

@[grind .] theorem attributed_absOf (v : Value) : Attributed host (absOf v) := by
  unfold absOf
  grind

@[grind .] theorem attributed_extreme (function : String) (want : Ordering) (args : List Value) :
    Attributed host (extreme function want args) := by
  unfold extreme
  grind

@[grind .] theorem attributed_sumOf (items start : Value) :
    Attributed host (sumOf items start) := by
  unfold sumOf
  grind

@[grind .] theorem attributed_number (start : Int64) (items : List Value) :
    Attributed host (number start items) := by
  unfold number
  grind

@[grind .] theorem attributed_placesOf (v : Value) : Attributed host (placesOf v) := by
  unfold placesOf
  grind

@[grind .] theorem attributed_roundOf (v : Value) (places : Option Int64) :
    Attributed host (roundOf v places) := by
  unfold roundOf
  grind

@[grind .] theorem attributed_apply (f : Builtin) (args : List Value) :
    Attributed host (f.apply args) := by
  unfold apply
  cases f <;> grind

end Builtin

namespace Method

@[grind .] theorem attributed_onDict (m : Method) (entries : List (Value × Value))
    (args : List Value) : Attributed host (onDict m entries args) := by
  unfold onDict
  cases m <;> grind

@[grind .] theorem attributed_splitOf (cs : List Char) (sep : Value) :
    Attributed host (splitOf cs sep) := by
  unfold splitOf
  grind

@[grind .] theorem attributed_onStr (m : Method) (s : String) (args : List Value) :
    Attributed host (onStr m s args) := by
  unfold onStr
  cases m <;> grind

@[grind .] theorem attributed_onSequence (m : Method) (receiver : Value) (items args : List Value) :
    Attributed host (onSequence m receiver items args) := by
  unfold onSequence
  cases m <;> grind

@[grind .] theorem attributed_apply (m : Method) (receiver : Value) (args : List Value) :
    Attributed host (m.apply receiver args) := by
  unfold apply
  grind

end Method

/-! ### Filters -/

namespace Filter

@[grind .] theorem attributed_numberOf (v : Value) : Attributed host (numberOf v) := by
  unfold numberOf
  grind

@[grind .] theorem attributed_string (cs : List Char) : Attributed host (string cs) := by
  unfold string
  grind

@[grind .] theorem attributed_argument (filter : String) (args : List Value) (i : Nat) :
    Attributed host (argument filter args i) := by
  unfold argument
  grind

@[grind ←] theorem attributed_arithmetic {op : Value → Value → Except Error Value}
    (h : ∀ a b, Attributed host (op a b)) (filter : String) (v : Value) (args : List Value) :
    Attributed host (arithmetic filter op v args) := by
  unfold arithmetic
  grind

@[grind .] theorem attributed_join (v : Value) (args : List Value) :
    Attributed host (join v args) := by
  unfold join
  grind

@[grind .] theorem attributed_split (v : Value) (args : List Value) :
    Attributed host (split v args) := by
  unfold split
  grind

@[grind .] theorem attributed_reverse (v : Value) (args : List Value) :
    Attributed host (reverse v args) := by
  unfold reverse
  grind

@[grind .] theorem attributed_orElse (v : Value) (args : List Value) :
    Attributed host (orElse v args) := by
  unfold orElse
  grind

@[grind .] theorem attributed_replace (v : Value) (args : List Value) :
    Attributed host (replace v args) := by
  unfold replace
  grind

@[grind .] theorem attributed_abs (v : Value) (args : List Value) :
    Attributed host (abs v args) := by
  unfold abs
  grind

/-- So does every standard filter. -/
theorem attributed_standard : ∀ entry ∈ standard, ∀ v args, Attributed host (entry.2 v args) := by
  simp only [standard, List.forall_mem_cons, List.not_mem_nil, false_implies, implies_true,
    and_true]
  and_intros <;> intro v args <;> grind

end Filter

/-! ### Expressions -/

@[grind .] theorem attributed_lookup (scope : Scope) (name : String) :
    Attributed host (scope.lookup name) := by
  unfold Scope.lookup
  grind

@[grind .] theorem attributed_callValue (callee : Value) (args : List Value) :
    Attributed host (host.callValue callee args) := by
  have hc : ∀ identity name, Attributed host (host.call identity name args) :=
    fun _ _ _ he => .inr (.call he)
  unfold Host.callValue
  grind

@[grind .] theorem attributed_applyFilter (scope : Scope) (name : String) (v : Value)
    (args : List Value) : Attributed host (host.applyFilter scope name v args) := by
  unfold Host.applyFilter
  split
  · next filter hf =>
    by_cases hs : (name, filter) ∈ Filter.standard
    · exact Filter.attributed_standard _ hs v args
    · exact fun e he => .inr (.filter hf hs he)
  · grind

namespace Expr

mutual

/-- Errors of expressions have no place, and are none of a tag's. -/
theorem attributed_eval (scope : Scope) (site : Site) :
    ∀ e : Expr, Attributed host (e.eval host scope site)
  | .literal v => by
    rw [eval]
    exact attributed_ok v
  | .list items => by
    rw [eval]
    exact (attributed_evalAll scope site 0 items).bind fun vs => attributed_pure _
  | .tuple items => by
    rw [eval]
    exact (attributed_evalAll scope site 0 items).bind fun vs => attributed_pure _
  | .set items => by
    have hitems := attributed_evalAll scope site 0 items
    rw [eval]
    grind
  | .dict es => by
    rw [eval]
    exact (attributed_evalEntries scope site 0 es).bind fun vs => attributed_pure _
  | .range first last => by
    have hfirst := attributed_eval scope (0 :: site) first
    have hlast := attributed_eval scope (1 :: site) last
    rw [eval]
    grind
  | .empty => by
    rw [eval]
    exact attributed_ok _
  | .var name => by
    rw [eval]
    exact attributed_lookup scope name
  | .attr base name => by
    rw [eval]
    exact (attributed_eval scope (0 :: site) base).bind fun v => Value.attributed_member _ _ _ _
  | .index base key => by
    have hbase := attributed_eval scope (0 :: site) base
    have hkey := attributed_eval scope (1 :: site) key
    rw [eval]
    grind
  | .slice base start stop step => by
    have hbase := attributed_eval scope (0 :: site) base
    have hstart := attributed_evalBound scope (1 :: site) start
    have hstop := attributed_evalBound scope (2 :: site) stop
    have hstep := attributed_evalBound scope (3 :: site) step
    rw [eval]
    grind
  | .call callee args => by
    have hcallee := attributed_eval scope (0 :: site) callee
    have hargs := attributed_evalAll scope site 1 args
    rw [eval]
    grind
  | .unary op e => by
    rw [eval]
    exact (attributed_eval scope (0 :: site) e).bind fun v => Value.attributed_unary _ _ _
  | .binary op left right => by
    have hleft := attributed_eval scope (0 :: site) left
    have hright := attributed_eval scope (1 :: site) right
    rw [eval]
    grind
  | .ternary cond yes no => by
    have hcond := attributed_eval scope (0 :: site) cond
    have hyes := attributed_eval scope (1 :: site) yes
    have hno := attributed_eval scope (2 :: site) no
    rw [eval]
    grind
  | .filter value name args => by
    have hvalue := attributed_eval scope (0 :: site) value
    have hargs := attributed_evalAll scope site 1 args
    rw [eval]
    grind

theorem attributed_evalAll (scope : Scope) (site : Site) :
    ∀ (i : Nat) (es : List Expr), Attributed host (evalAll host scope site i es)
  | _, [] => by
    rw [evalAll]
    exact attributed_ok []
  | i, e :: es => by
    rw [evalAll]
    refine (attributed_eval scope (i :: site) e).bind fun v => ?_
    exact (attributed_evalAll scope site (i + 1) es).bind fun vs => attributed_pure _

theorem attributed_evalEntries (scope : Scope) (site : Site) :
    ∀ (i : Nat) (es : List (Expr × Expr)), Attributed host (evalEntries host scope site i es)
  | _, [] => by
    rw [evalEntries]
    exact attributed_ok []
  | i, (key, value) :: es => by
    have hkey := attributed_eval scope (i :: site) key
    have hvalue := attributed_eval scope ((i + 1) :: site) value
    have hes := attributed_evalEntries scope site (i + 2) es
    rw [evalEntries]
    grind

theorem attributed_evalBound (scope : Scope) (site : Site) :
    ∀ e : Option Expr, Attributed host (evalBound host scope site e)
  | none => by
    rw [evalBound]
    exact attributed_ok none
  | some e => by
    rw [evalBound]
    exact (attributed_eval scope site e).bind fun v => Value.attributed_sliceBound v

end

end Expr

/-! ### Errors without a place -/

/-- Every error of the result is a render fault without a place. -/
def Unplaced (x : Except Error α) : Prop := ∀ e, x = .error e → ∃ f, e = .failed f

theorem unplaced_ok (a : α) : Unplaced (.ok a) := by
  intro e h
  cases h

/-- What the host supplies fails without a place. -/
structure Host.FailsUnplaced (host : Host) : Prop where
  filters : ∀ name filter, host.filters.get? name = some filter → ∀ v args, Unplaced (filter v args)
  call : ∀ identity name args, Unplaced (host.call identity name args)

theorem Attributed.unplaced {x : Except Error α} (hx : Attributed host x)
    (h : host.FailsUnplaced) : Unplaced x := by
  intro e he
  rcases hx e he with ⟨f, rfl, -⟩ | hraised
  · exact ⟨f, rfl⟩
  · cases hraised with
    | call hc => exact h.call _ _ _ e hc
    | filter hf _ hv => exact h.filters _ _ hf _ _ e hv

/-- A result that no host has a part in fails without a place. -/
theorem unplaced_of_attributed {x : Except Error α} (h : ∀ host, Attributed host x) :
    Unplaced x :=
  let silent : Host := ⟨[], fun _ _ _ => .ok .nil, 0⟩
  (h silent).unplaced ⟨nofun, fun _ _ _ => unplaced_ok _⟩

theorem Value.unplaced_iterate (v : Value) : Unplaced v.iterate :=
  unplaced_of_attributed fun _ => v.attributed_iterate

theorem Value.unplaced_toInt (v : Value) : Unplaced v.toInt :=
  unplaced_of_attributed fun _ => v.attributed_toInt

/-- The standard filters leave only the functions of the host to answer for. -/
theorem Host.failsUnplaced_of_standard {host : Host} (hf : host.filters = Filter.standard)
    (hc : ∀ identity name args, Unplaced (host.call identity name args)) : host.FailsUnplaced := by
  refine ⟨fun name filter h v args => ?_, hc⟩
  rw [hf] at h
  exact unplaced_of_attributed fun _ =>
    Filter.attributed_standard _ (FilterTable.mem_of_get? h) v args

/-- **Errors of expressions have no place.** -/
theorem Expr.unplaced_eval (h : host.FailsUnplaced) (scope : Scope) (site : Site) (e : Expr) :
    Unplaced (e.eval host scope site) :=
  (attributed_eval scope site e).unplaced h

end TemplateEngine
