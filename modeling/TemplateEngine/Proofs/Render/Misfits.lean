import TemplateEngine.Proofs.Expr.Faults
import TemplateEngine.Proofs.Markup.BuiltIn
import TemplateEngine.Proofs.Render.Runs
import TemplateEngine.Template

/-!
# Heads that fit their tags

A tag that needs an expression, a name, the head of a loop or an assignment fails when its head has
another form.  No built-in tag of a template does (`spares_run`): the head of each fits its
behavior, and what else fails in a rendering is an expression, the binding of targets or a loop that
runs too often.  So only the host can raise such a fault (`renderNodes_spares`).
-/

namespace TemplateEngine

/-- If the stop is the fault of a misfit head, then the host raises that fault. -/
def Stop.Spared (host : Host) (stop : Stop) : Prop :=
  ∀ f o, stop = .error (.render f o) → f.IsMisfit → ∃ o', host.Raises (.render f o')

theorem Stop.Spared.placedAt {host : Host} {stop : Stop} (h : stop.Spared host) (offset : Nat) :
    (stop.placedAt offset).Spared host := by
  intro f o he hf
  cases stop with
  | exhausted => cases he
  | error e =>
    cases e with
    | render f' o' =>
      obtain rfl : f' = f := by cases o' <;> cases he <;> rfl
      exact h f' o' rfl hf
    | parse _ _ => cases he
    | registry _ => cases he

namespace Render

variable {α β : Type} {host : Host}

/-! ### Renderings that spare heads -/

/-- The rendering stops with the fault of a misfit head only if the host raises that fault. -/
def Spares (host : Host) (r : Render α) : Prop :=
  ∀ s stop s', r.runFrom host s = (.error stop, s') → stop.Spared host

/-- The rendering never stops. -/
theorem spares_of_ok {r : Render α} (h : ∀ s, ∃ a, (r.runFrom host s).1 = .ok a) :
    Spares host r := by
  intro s stop s' e
  obtain ⟨a, ha⟩ := h s
  rw [e] at ha
  cases ha

theorem spares_pure (a : α) : Spares host (pure a) := spares_of_ok fun _ => ⟨a, rfl⟩

theorem spares_read : Spares host (read : Render Host) := spares_of_ok fun _ => ⟨_, rfl⟩

theorem spares_get : Spares host (get : Render RenderState) := spares_of_ok fun _ => ⟨_, rfl⟩

theorem spares_mode : Spares host mode := spares_of_ok fun _ => ⟨_, rfl⟩

theorem spares_write (text : String) : Spares host (write text) := spares_of_ok fun _ => ⟨_, rfl⟩

theorem spares_modifyScope (f : Scope → Scope) : Spares host (modifyScope f) :=
  spares_of_ok fun _ => ⟨_, rfl⟩

theorem spares_fault {f : RenderFault} (hf : ¬f.IsMisfit) :
    Spares host (fault f : Render α) := by
  rintro s stop s' e f' o rfl hf'
  cases e
  exact absurd hf' hf

theorem spares_lift {x : Except Error α} (hx : Attributed host x) : Spares host (lift x) := by
  rintro s stop s' e f o rfl hf
  rw [runFrom_lift] at e
  cases x with
  | ok a => cases e
  | error e' =>
    cases e
    rcases hx _ rfl with ⟨f', he, hf'⟩ | hraised
    · cases he
      exact absurd hf hf'
    · exact ⟨o, hraised⟩

theorem Spares.bind {r : Render α} {f : α → Render β} (hr : Spares host r)
    (hf : ∀ a, Spares host (f a)) : Spares host (r >>= f) := by
  intro s stop s' e
  rcases runFrom_bind_error e with e | ⟨a, s₁, -, e⟩
  · exact hr s stop s' e
  · exact hf a s₁ stop s' e

theorem Spares.framed {r : Render α} (hr : Spares host r) : Spares host (framed r) := by
  intro s stop s' e
  obtain ⟨s₁, e⟩ := framed_error e
  exact hr _ stop s₁ e

theorem Spares.aside {r : Render α} (hr : Spares host r) : Spares host (aside r) := by
  intro s stop s' e
  obtain ⟨s₁, e⟩ := aside_error e
  exact hr _ stop s₁ e

theorem Spares.located {r : Render α} (hr : Spares host r) (offset : Nat) :
    Spares host (located offset r) := by
  intro s stop s' e
  obtain ⟨stop', e', rfl⟩ := located_error e
  exact (hr s stop' s' e').placedAt offset

theorem spares_forM {f : α → Render Unit} (h : ∀ a, Spares host (f a)) (xs : List α) :
    Spares host (xs.forM f) := by
  induction xs with
  | nil => exact spares_pure ()
  | cons x xs ih => exact (h x).bind fun _ => ih

theorem spares_valueAt (part : List Nat) (e : Expr) : Spares host (valueAt part e) :=
  fun s stop s' h => spares_lift (Expr.attributed_eval s.scope _ e) s stop s' h

theorem spares_lastingValue (e : Expr) : Spares host (lastingValue e) :=
  (spares_valueAt [] e).bind fun _ => (spares_modifyScope _).bind fun _ => spares_pure _

theorem spares_holds (e : Expr) : Spares host (holds e) :=
  (spares_valueAt [] e).bind fun _ => spares_mode.bind fun _ => spares_pure _

theorem spares_writeValue (v : Value) : Spares host (writeValue v) :=
  spares_mode.bind fun _ => spares_write _

end Render

namespace Tag
open Render

variable {host : Host}

/-! ### Clauses -/

theorem spares_runFirst {clauses : List ClauseView} {select : ClauseView → Render Bool}
    (hs : ∀ c, Spares host (select c)) (hc : ∀ c ∈ clauses, Spares host c.run) :
    Spares host (runFirst clauses select) := by
  induction clauses with
  | nil => exact spares_pure _
  | cons c more ih =>
    rw [runFirst]
    refine (hs c).bind fun chosen => ?_
    split
    · exact hc c (by simp)
    · exact ih fun d hd => hc d (by simp [hd])

theorem spares_runElse {v : View} (hc : ∀ c ∈ v.clauses, Spares host c.run) :
    Spares host (runElse v) := by
  unfold runElse
  split
  · next c more he => exact hc c (by simp [he])
  · exact spares_pure _

theorem spares_conditionHolds (c : ClauseView) : Spares host (conditionHolds c) := by
  unfold conditionHolds
  split
  · exact (spares_holds _).located _
  · exact spares_pure _

theorem spares_anyEquals (offset : Nat) (subject : Value) (es : List Expr) :
    Spares host (anyEquals offset subject es) := by
  induction es with
  | nil => exact spares_pure _
  | cons e es ih =>
    rw [anyEquals]
    refine ((spares_valueAt [1] e).located offset).bind fun v => ?_
    split
    · exact spares_pure _
    · exact ih

theorem spares_holdsSubject (subject : Value) (c : ClauseView) :
    Spares host (holdsSubject subject c) := by
  unfold holdsSubject
  split
  · exact spares_anyEquals _ _ _
  · exact spares_pure _

/-! ### Loops -/

theorem spares_bindTargets (targets : List String) (item : Value) :
    Spares host (bindTargets targets item) := by
  unfold bindTargets
  split
  · exact spares_modifyScope _
  · refine (spares_lift item.attributed_iterate).bind fun values => ?_
    split
    · exact spares_fault nofun
    · exact spares_forM (fun _ => spares_modifyScope _) _

theorem spares_countOf (e : Expr) : Spares host (countOf e) :=
  (spares_valueAt [] e).bind fun v =>
    (spares_lift v.attributed_toInt).bind fun _ => spares_pure _

theorem spares_dropItems (e : Option Expr) (items : List Value) :
    Spares host (dropItems e items) := by
  cases e with
  | none => exact spares_pure _
  | some e => exact (spares_countOf e).bind fun _ => spares_pure _

theorem spares_takeItems (e : Option Expr) (items : List Value) :
    Spares host (takeItems e items) := by
  cases e with
  | none => exact spares_pure _
  | some e => exact (spares_countOf e).bind fun _ => spares_pure _

theorem spares_chosenItems (head : LoopHead) (items : List Value) :
    Spares host (chosenItems head items) :=
  (spares_dropItems _ _).bind fun _ => (spares_takeItems _ _).bind fun _ => spares_pure _

theorem spares_loopItems (head : LoopHead) : Spares host (loopItems head) := by
  refine (spares_lastingValue _).bind fun v => spares_mode.bind fun mode => ?_
  split
  · exact spares_chosenItems _ _
  · exact (spares_lift (Value.attributed_iterate _)).bind fun items => spares_chosenItems _ _

theorem spares_forTurns (targets : List String) (info : String) (length : Nat)
    {body : Render Signal} (hb : Spares host body) (index : Nat) (items : List Value) :
    Spares host (forTurns targets info length body index items) := by
  induction items generalizing index with
  | nil => exact spares_pure _
  | cons item items ih =>
    rw [forTurns]
    refine Spares.bind (Spares.framed ?_) fun signal => ?_
    · exact (spares_bindTargets _ _).bind fun _ => (spares_modifyScope _).bind fun _ => hb
    · split
      · exact spares_pure _
      · exact ih _

theorem spares_whileTurns (cond : Expr) {body : Render Signal} (hb : Spares host body) (n : Nat) :
    Spares host (whileTurns cond body n) := by
  induction n with
  | zero =>
    rintro s stop s' e f o rfl
    cases e
  | succ n ih =>
    rw [whileTurns]
    refine (spares_holds cond).bind fun holds => ?_
    split
    · refine hb.framed.bind fun signal => ?_
      split
      · exact spares_pure _
      · exact ih
    · exact spares_pure _

/-! ### Behaviors -/

/-- A built-in tag whose head fits it raises no fault of a misfit head. -/
theorem spares_run {b : Behavior} {v : View} (hf : Fits b v.args) (hb : Spares host v.body)
    (hc : ∀ c ∈ v.clauses, Spares host c.run) : Spares host (b.run v) := by
  obtain ⟨name, args, body, clauses⟩ := v
  cases hf with
  | condition negated e =>
    refine (spares_holds e).bind fun holds => ?_
    split
    · exact hb.framed
    · exact spares_runFirst spares_conditionHolds hc
  | choice e =>
    exact (spares_valueAt [0] e).bind fun subject => spares_runFirst (spares_holdsSubject _) hc
  | forLoop head =>
    -- whichever way the dialect decides for the clause
    have either : ∀ b : Bool, Spares host
        (if b then runElse ⟨name, .forLoop head, body, clauses⟩ else pure .normal) := by
      intro b
      cases b with
      | true => exact spares_runElse hc
      | false => exact spares_pure _
    exact (spares_loopItems head).bind fun items => spares_mode.bind fun mode =>
      (spares_forTurns _ _ _ hb _ _).bind fun broke => either _
  | whileLoop e =>
    refine spares_read.bind fun host' => (spares_whileTurns e hb _).bind fun broke => ?_
    split
    · exact spares_pure _
    · exact spares_runElse hc
  | control signal => exact spares_pure _
  | assign name e =>
    exact (spares_lastingValue e).bind fun v => (spares_modifyScope _).bind fun _ => spares_pure _
  | capture name =>
    exact hb.framed.aside.bind fun x => (spares_modifyScope _).bind fun _ => spares_pure _
  | echo e =>
    exact (spares_valueAt [] e).bind fun v => (spares_writeValue v).bind fun _ => spares_pure _
  | counter step name =>
    exact (spares_pure name).bind fun name => spares_get.bind fun s =>
      (spares_modifyScope _).bind fun _ => (spares_write _).bind fun _ => spares_pure _

end Tag

namespace Markup
open Render

variable {host : Host}

/-! ### Trees -/

theorem spares_andThen {first rest : Render Signal} (hf : Spares host first)
    (hr : Spares host rest) : Spares host (andThen first rest) := by
  refine hf.bind fun signal => ?_
  split
  · exact hr
  · exact spares_pure _

mutual

/-- A node of built-in tags raises no fault of a misfit head. -/
theorem spares_node : ∀ {node : Node}, node.BuiltIn → Spares host node.run
  | .text s, _ => (spares_write s).bind fun _ => spares_pure _
  | .output e offset, _ =>
    ((spares_valueAt [] e).located offset).bind fun v =>
      (spares_writeValue v).bind fun _ => spares_pure _
  | .tag h _ _, ⟨hf, hchildren, hclauses⟩ =>
    (Tag.spares_run hf (spares_runNodes hchildren) (spares_clauseViews hclauses)).located h.offset

/-- Nor does a row of them. -/
theorem spares_runNodes : ∀ {nodes : List Node}, AllBuiltIn nodes → Spares host (runNodes nodes)
  | [], _ => spares_pure _
  | _ :: _, ⟨hn, hs⟩ => spares_andThen (spares_node hn) (spares_runNodes hs)

/-- Nor do clauses. -/
theorem spares_clauseViews : ∀ {clauses : List (Head × List Node)}, ClausesBuiltIn clauses →
    ∀ c ∈ clauseViews clauses, Spares host c.run
  | [], _ => by simp [clauseViews]
  | (h, nodes) :: more, ⟨hb, hn, hs⟩ => by
    intro c hc
    rcases List.mem_cons.mp hc with rfl | hc
    · have hrun : h.run (runNodes nodes) [] = located h.offset (framed (runNodes nodes)) := by
        rw [Head.run, hb]
        rfl
      rw [hrun]
      exact (spares_runNodes hn).framed.located h.offset
    · exact spares_clauseViews hs c hc

end

end Markup

namespace Template
open Markup

/-- **Built-in tags never meet a head of the wrong shape.**  In a template of the built-in registry
every tag has a head that its behavior can use, and a loop has no clause or one, which is `else`.  A
rendering of it, on any host and with any variables, fails for want of an expression, of a name, of
the head of a loop or of an assignment only if a function or a filter of the host fails so. -/
theorem renderNodes_spares {mode : Mode} {source : String} {nodes : List Node}
    (hp : parse .standard mode source = .ok nodes) :
    (∀ row, RowIn nodes row → ∀ h children clauses, .tag h children clauses ∈ row →
      Tag.Fits h.descriptor.behavior h.args ∧
        (h.name ∈ ["for", "while"] →
          clauses = [] ∨ ∃ k rest, clauses = [(k, rest)] ∧ k.name = "else")) ∧
    ∀ (host : Host) (globals : Frame) (fault : RenderFault) (offset : Option Nat),
      renderNodes host mode globals nodes = .error (.error (.render fault offset)) →
      fault.IsMisfit → ∃ offset', host.Raises (.render fault offset') := by
  have hbuiltIn : AllBuiltIn nodes := allBuiltIn_of_parse .standard (fun _ _ _ hd => hd) hp
  refine ⟨fun row hrow h children clauses hn => ?_, fun host globals fault offset hr hf => ?_⟩
  · exact ⟨((hrow.allBuiltIn hbuiltIn).of_mem hn).1, clauses_of_loop hp hrow hn⟩
  · unfold renderNodes at hr
    cases hrun : (runNodes nodes).runFrom host ⟨.ofGlobals mode globals, ""⟩ with
    | mk result s =>
      rw [hrun] at hr
      cases result with
      | ok signal => cases hr
      | error stop =>
        cases hr
        exact spares_runNodes hbuiltIn _ _ _ hrun fault offset rfl hf

/-- A loop with a clause, in it an `else if` and an assignment, on a host with the standard filters
and functions that do not fail. -/
theorem renderNodes_spares_loop : ∃ nodes,
    parse .standard .python
      ("\x7b% for x in xs %\x7d\x7b% if x %\x7d\x7b% else if y(x) %\x7d" ++
        "\x7b% assign z = x %\x7d\x7b% endif %\x7d\x7b% else %\x7d\x7b% endfor %\x7d") = .ok nodes ∧
    ∀ globals fault offset,
      renderNodes ⟨Filter.standard, fun _ _ _ => .ok .nil, 10⟩ .python globals nodes =
        .error (.error (.render fault offset)) → ¬fault.IsMisfit := by
  have hok : (parse .standard .python
      ("\x7b% for x in xs %\x7d\x7b% if x %\x7d\x7b% else if y(x) %\x7d" ++
        "\x7b% assign z = x %\x7d\x7b% endif %\x7d\x7b% else %\x7d\x7b% endfor %\x7d")).isOk =
      true := by
    decide +kernel
  obtain ⟨nodes, hp⟩ := exists_of_isOk hok
  refine ⟨nodes, hp, fun globals fault offset hr hf => ?_⟩
  obtain ⟨offset', hraised⟩ := (renderNodes_spares hp).2 _ globals fault offset hr hf
  cases hraised with
  | call h => cases h
  | filter h hs _ => exact absurd (FilterTable.mem_of_get? h) hs

end Template

end TemplateEngine
