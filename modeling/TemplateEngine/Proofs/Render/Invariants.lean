import TemplateEngine.Proofs.Markup.BuiltIn
import TemplateEngine.Proofs.Render.Turns
import TemplateEngine.Template

/-!
# Relations across a rendering

What a built-in tag can do to the scope is the content of `Scope.Invariant`: it ticks the clock,
assigns, counts, or renders a body in a frame of its own, where a loop has bound names.  A relation
that holds across each of these steps holds across every rendering of a tree of built-in tags
(`keeps_runNodes`), whether it ends with a signal or stops.
-/

namespace TemplateEngine

/-- The relation holds across evaluations, of which nothing but the clock remains. -/
structure Scope.Steady (R : Scope → Scope → Prop) : Prop where
  refl : ∀ s, R s s
  trans : ∀ s t u, R s t → R t u → R s u
  tick : ∀ s, R s s.tick

/-- The relation holds across each change of the scope that a built-in tag makes. -/
structure Scope.Invariant (R : Scope → Scope → Prop) : Prop extends Scope.Steady R where
  assign : ∀ s name value, R s (s.assign name value)
  bump : ∀ s name delta, R s (s.bump name delta)
  /-- A frame is opened and names are bound in it; it is dropped after what has been rendered. -/
  block : ∀ {s t} (bindings : List (String × Value)), R (s.push.bindLocals bindings) t → R s t.pop

namespace Render

variable {α : Type} {R : Scope → Scope → Prop}

theorem Keeps.framed (hR : Scope.Invariant R) {r : Render α} (h : r.Keeps R) :
    (framed r).Keeps R :=
  fun host s => hR.block [] (h host { s with scope := s.scope.push })

variable (hR : Scope.Steady R)

include hR

theorem keeps_value (e : Expr) : (value e).Keeps R := by
  intro host s
  rw [runFrom_value]
  exact hR.refl _

theorem keeps_valueAt (part : List Nat) (e : Expr) : (valueAt part e).Keeps R :=
  fun host s => keeps_lift hR.refl (e.eval host s.scope (part ++ [s.scope.clock])) host s

theorem keeps_mode : mode.Keeps R := fun _ s => hR.refl s.scope

theorem keeps_holds (e : Expr) : (holds e).Keeps R :=
  (keeps_value hR e).bind hR.trans fun _ => (keeps_mode hR).bind hR.trans fun _ =>
    keeps_pure hR.refl _

theorem keeps_lastingValue (e : Expr) : (lastingValue e).Keeps R :=
  (keeps_value hR e).bind hR.trans fun _ => (keeps_modifyScope hR.tick).bind hR.trans fun _ =>
    keeps_pure hR.refl _

theorem keeps_writeValue (v : Value) : (writeValue v).Keeps R :=
  (keeps_mode hR).bind hR.trans fun _ => keeps_write hR.refl _

end Render

namespace Tag
open Render

variable {R : Scope → Scope → Prop}

section Evaluations

/-! ### Tests of clauses, items and turns of loops -/

variable (hR : Scope.Steady R)

include hR

theorem keeps_conditionHolds (c : ClauseView) : (conditionHolds c).Keeps R := by
  unfold conditionHolds
  split
  · exact (keeps_holds hR _).located _
  · exact keeps_pure hR.refl _

theorem keeps_anyEquals (offset : Nat) (subject : Value) (es : List Expr) :
    (anyEquals offset subject es).Keeps R := by
  induction es with
  | nil => exact keeps_pure hR.refl _
  | cons e es ih =>
    refine ((keeps_valueAt hR [1] e).located offset).bind hR.trans fun v => ?_
    split
    · exact keeps_pure hR.refl _
    · exact ih

theorem keeps_holdsSubject (subject : Value) (c : ClauseView) :
    (holdsSubject subject c).Keeps R := by
  unfold holdsSubject
  split
  · exact keeps_anyEquals hR _ _ _
  · exact keeps_pure hR.refl _

theorem keeps_countOf (e : Expr) : (countOf e).Keeps R :=
  (keeps_value hR e).bind hR.trans fun _ => (keeps_lift hR.refl _).bind hR.trans fun _ =>
    keeps_pure hR.refl _

theorem keeps_dropItems (e : Option Expr) (items : List Value) : (dropItems e items).Keeps R := by
  cases e with
  | none => exact keeps_pure hR.refl _
  | some e => exact (keeps_countOf hR e).bind hR.trans fun _ => keeps_pure hR.refl _

theorem keeps_takeItems (e : Option Expr) (items : List Value) : (takeItems e items).Keeps R := by
  cases e with
  | none => exact keeps_pure hR.refl _
  | some e => exact (keeps_countOf hR e).bind hR.trans fun _ => keeps_pure hR.refl _

theorem keeps_chosenItems (head : LoopHead) (items : List Value) :
    (chosenItems head items).Keeps R :=
  (keeps_dropItems hR _ _).bind hR.trans fun _ => (keeps_takeItems hR _ _).bind hR.trans fun _ =>
    keeps_pure hR.refl _

theorem keeps_loopItems (head : LoopHead) : (loopItems head).Keeps R := by
  refine (keeps_lastingValue hR _).bind hR.trans fun v => ?_
  refine (keeps_mode hR).bind hR.trans fun mode => ?_
  split
  · exact keeps_chosenItems hR _ _
  · exact (keeps_lift hR.refl _).bind hR.trans fun _ => keeps_chosenItems hR _ _

/-- The turns of a loop keep what one turn does. -/
theorem keeps_forTurns_of_turn {targets : List String} {info : String} {length : Nat}
    {body : Render Signal}
    (hturn : ∀ index item, (forTurn targets info length body index item).Keeps R) (index : Nat)
    (items : List Value) : (forTurns targets info length body index items).Keeps R := by
  induction items generalizing index with
  | nil => exact keeps_pure hR.refl _
  | cons item items ih =>
    rw [forTurns_cons]
    refine (hturn index item).bind hR.trans fun signal => ?_
    split
    · exact keeps_pure hR.refl _
    · exact ih _

end Evaluations

variable (hR : Scope.Invariant R)

include hR

/-! ### Choices -/

theorem keeps_runFirst {clauses : List ClauseView} {select : ClauseView → Render Bool}
    (hs : ∀ c, (select c).Keeps R) (hc : ∀ c ∈ clauses, c.run.Keeps R) :
    (runFirst clauses select).Keeps R := by
  induction clauses with
  | nil => exact keeps_pure hR.refl _
  | cons c more ih =>
    refine (hs c).bind hR.trans fun chosen => ?_
    split
    · exact hc c (by simp)
    · exact ih fun d hd => hc d (by simp [hd])

/-! ### Loops -/

theorem keeps_runElse {v : View} (h : ∀ c ∈ v.clauses, c.run.Keeps R) : (runElse v).Keeps R := by
  unfold runElse
  split
  · next c more hc => exact h c (by simp [hc])
  · exact keeps_pure hR.refl _

/-- A turn ends with the frame that its names were bound in. -/
theorem keeps_forTurn {targets : List String} {info : String} {length index : Nat} {item : Value}
    {body : Render Signal} (hb : body.Keeps R) :
    (forTurn targets info length body index item).Keeps R := by
  intro host s
  rcases runFrom_forTurn targets info length body index item host s with
    ⟨f, hf⟩ | ⟨bindings, -, hok⟩
  · rw [hf]
    exact hR.refl s.scope
  · rw [hok]
    exact hR.block bindings (hb host { s with scope := s.scope.push.bindLocals bindings })

theorem keeps_forTurns {targets : List String} {info : String} {length : Nat}
    {body : Render Signal} (hb : body.Keeps R) (index : Nat) (items : List Value) :
    (forTurns targets info length body index items).Keeps R :=
  keeps_forTurns_of_turn hR.toSteady (fun _ _ => keeps_forTurn hR hb) index items

theorem keeps_whileTurns {cond : Expr} {body : Render Signal} (hb : body.Keeps R) (n : Nat) :
    (whileTurns cond body n).Keeps R := by
  induction n with
  | zero => exact fun _ s => hR.refl s.scope
  | succ n ih =>
    rw [whileTurns_succ]
    refine (keeps_holds hR.toSteady cond).bind hR.trans fun holds => ?_
    split
    · refine (hb.framed hR).bind hR.trans fun signal => ?_
      split
      · exact keeps_pure hR.refl _
      · exact ih
    · exact keeps_pure hR.refl _

/-! ### Behaviors -/

theorem keeps_expr (v : View) : v.expr.Keeps R := by
  unfold View.expr
  split
  · exact keeps_pure hR.refl _
  · exact keeps_fault hR.refl _

theorem keeps_varName (v : View) : v.varName.Keeps R := by
  unfold View.varName
  split
  · exact keeps_pure hR.refl _
  · exact keeps_fault hR.refl _

theorem keeps_runFor {v : View} (hb : v.body.Keeps R) (hc : ∀ c ∈ v.clauses, c.run.Keeps R) :
    (runFor v).Keeps R := by
  unfold runFor
  split
  · next head _ =>
    refine (keeps_loopItems hR.toSteady head).bind hR.trans fun items => ?_
    refine (keeps_mode hR.toSteady).bind hR.trans fun mode => ?_
    refine (keeps_forTurns hR hb 0 items).bind hR.trans fun broke => ?_
    -- whichever way the dialect decides for the clause
    have either : ∀ b : Bool, (if b then runElse v else pure Signal.normal).Keeps R := by
      intro b
      cases b with
      | true => exact keeps_runElse hR hc
      | false => exact keeps_pure hR.refl _
    exact either _
  · exact keeps_fault hR.refl _

theorem keeps_runAssign (v : View) : (runAssign v).Keeps R := by
  unfold runAssign
  split
  · next name e _ =>
    refine (keeps_lastingValue hR.toSteady e).bind hR.trans fun value => ?_
    refine (keeps_modifyScope fun s => hR.assign s name value).bind hR.trans fun _ => ?_
    exact keeps_pure hR.refl _
  · exact keeps_fault hR.refl _

/-- A built-in tag keeps the relation if its body and its clauses do. -/
theorem keeps_run {b : Behavior} {v : View} (hhost : ∀ f, b ≠ .host f) (hb : v.body.Keeps R)
    (hc : ∀ c ∈ v.clauses, c.run.Keeps R) : (b.run v).Keeps R := by
  cases b with
  | condition negated =>
    refine (keeps_expr hR v).bind hR.trans fun e => ?_
    refine (keeps_holds hR.toSteady e).bind hR.trans fun holds => ?_
    split
    · exact hb.framed hR
    · exact keeps_runFirst hR (keeps_conditionHolds hR.toSteady) hc
  | clause => exact hb.framed hR
  | choice =>
    refine (keeps_expr hR v).bind hR.trans fun e => ?_
    refine (keeps_valueAt hR.toSteady [0] e).bind hR.trans fun subject => ?_
    exact keeps_runFirst hR (keeps_holdsSubject hR.toSteady subject) hc
  | forLoop => exact keeps_runFor hR hb hc
  | whileLoop =>
    refine (keeps_expr hR v).bind hR.trans fun cond => ?_
    refine (keeps_read hR.refl).bind hR.trans fun host => ?_
    refine (keeps_whileTurns hR hb _).bind hR.trans fun broke => ?_
    split
    · exact keeps_pure hR.refl _
    · exact keeps_runElse hR hc
  | control signal => exact keeps_pure hR.refl _
  | assign => exact keeps_runAssign hR v
  | capture =>
    refine (keeps_varName hR v).bind hR.trans fun name => ?_
    refine (hb.framed hR).aside.bind hR.trans fun (signal, text) => ?_
    refine (keeps_modifyScope fun s => hR.assign s name (.str text)).bind hR.trans fun _ => ?_
    exact keeps_pure hR.refl _
  | echo =>
    refine (keeps_expr hR v).bind hR.trans fun e => ?_
    refine (keeps_value hR.toSteady e).bind hR.trans fun value => ?_
    exact (keeps_writeValue hR.toSteady value).bind hR.trans fun _ => keeps_pure hR.refl _
  | counter step =>
    refine (keeps_varName hR v).bind hR.trans fun name => ?_
    refine (keeps_get hR.refl).bind hR.trans fun state => ?_
    refine (keeps_modifyScope fun s => hR.bump s name step).bind hR.trans fun _ => ?_
    exact (keeps_write hR.refl _).bind hR.trans fun _ => keeps_pure hR.refl _
  | host run => exact absurd rfl (hhost run)

end Tag

namespace Markup
open Render

variable {R : Scope → Scope → Prop} (hR : Scope.Invariant R)

include hR

theorem keeps_andThen {first rest : Render Signal} (hf : first.Keeps R) (hr : rest.Keeps R) :
    (andThen first rest).Keeps R := by
  refine hf.bind hR.trans fun signal => ?_
  cases signal with
  | normal => exact hr
  | breakLoop | nextTurn => exact keeps_pure hR.refl _

mutual

/-- A node of built-in tags keeps the relation. -/
theorem keeps_node : ∀ {node : Node}, node.BuiltIn → node.run.Keeps R
  | .text s, _ => (keeps_write hR.refl s).bind hR.trans fun _ => keeps_pure hR.refl _
  | .output e offset, _ =>
    ((keeps_value hR.toSteady e).located offset).bind hR.trans fun v =>
      (keeps_writeValue hR.toSteady v).bind hR.trans fun _ => keeps_pure hR.refl _
  | .tag .., ⟨hf, hchildren, hclauses⟩ =>
    (Tag.keeps_run hR hf.ne_host (keeps_runNodes hchildren) (keeps_clauseViews hclauses)).located _

/-- A row of such nodes does. -/
theorem keeps_runNodes : ∀ {nodes : List Node}, AllBuiltIn nodes → (runNodes nodes).Keeps R
  | [], _ => keeps_pure hR.refl _
  | _ :: _, ⟨hn, hs⟩ => keeps_andThen hR (keeps_node hn) (keeps_runNodes hs)

/-- Each clause of such a block does. -/
theorem keeps_clauseViews : ∀ {clauses : List (Head × List Node)}, ClausesBuiltIn clauses →
    ∀ c ∈ clauseViews clauses, c.run.Keeps R
  | [], _ => by simp [clauseViews]
  | (h, nodes) :: clauses, ⟨hb, hn, hs⟩ => by
    intro c hc
    rcases List.mem_cons.mp hc with rfl | hc
    · refine (Tag.keeps_run hR ?_ (keeps_runNodes hn) (by simp)).located _
      simp [hb]
    · exact keeps_clauseViews hs c hc

end

end Markup

end TemplateEngine
