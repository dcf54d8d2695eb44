import TemplateEngine.Proofs.Render.Turns

/-!
# Renderings that are alike

Two renderings of built-in tags can run side by side: from scopes that are alike they write the same
text, end with results that are alike and leave scopes that are alike.  What it takes is the content
of `Likeness`: each step that a built-in tag makes keeps the scopes alike, and expressions have the
same values in them.  Stops are alike up to what the likeness forgets, for example their places.

A frame that is opened lies inside all frames that were there before, so how scopes are alike can
depend on how many frames have been opened since; only in such a frame are names bound.
-/

namespace TemplateEngine

/-- How two renderings are alike, as the steps of built-in tags keep it. -/
structure Likeness where
  /-- The scopes are alike inside this many frames that have been opened. -/
  scopes : Nat → Scope → Scope → Prop
  /-- The renderings end alike. -/
  stops : Stop → Stop → Prop
  /-- The nodes at these places match. -/
  places : Nat → Nat → Prop
  stops_refl : ∀ stop, stops stop stop
  stops_placedAt : ∀ {stop stop' : Stop} {offset offset' : Nat}, places offset offset' →
    stops stop stop' → stops (stop.placedAt offset) (stop'.placedAt offset')
  mode : ∀ {depth : Nat} {s s' : Scope}, scopes depth s s' → s.mode = s'.mode
  clock : ∀ {depth : Nat} {s s' : Scope}, scopes depth s s' → s.clock = s'.clock
  counter : ∀ {depth : Nat} {s s' : Scope}, scopes depth s s' → s.counter = s'.counter
  eval : ∀ {depth : Nat} {s s' : Scope}, scopes depth s s' → ∀ host (e : Expr) part,
    e.eval host s part = e.eval host s' part
  tick : ∀ {depth : Nat} {s s' : Scope}, scopes depth s s' → scopes depth s.tick s'.tick
  bump : ∀ {depth : Nat} {s s' : Scope}, scopes depth s s' → ∀ name delta,
    scopes depth (s.bump name delta) (s'.bump name delta)
  assign : ∀ {depth : Nat} {s s' : Scope}, scopes depth s s' → ∀ name value,
    scopes depth (s.assign name value) (s'.assign name value)
  setLocal : ∀ {depth : Nat} {s s' : Scope}, scopes (depth + 1) s s' → ∀ name value,
    scopes (depth + 1) (s.setLocal name value) (s'.setLocal name value)
  push : ∀ {depth : Nat} {s s' : Scope}, scopes depth s s' → scopes (depth + 1) s.push s'.push
  pop : ∀ {depth : Nat} {s s' : Scope}, scopes (depth + 1) s s' → scopes depth s.pop s'.pop

namespace Likeness
open Render

variable (L : Likeness) {α β : Type}

/-- The same value, or stops that are alike. -/
inductive Results : Except Stop α → Except Stop α → Prop where
  | ok (a : α) : Results (.ok a) (.ok a)
  | stop {e e' : Stop} (h : L.stops e e') : Results (.error e) (.error e')

/-- The renderings have ended alike, in states that are alike. -/
structure Outcomes (depth : Nat) (x x' : Except Stop α × RenderState) : Prop where
  result : L.Results x.1 x'.1
  scope : L.scopes depth x.2.scope x'.2.scope
  out : x.2.out = x'.2.out

/-- From states that are alike the renderings end alike. -/
def Alike (depth : Nat) (r r' : Render α) : Prop :=
  ∀ host s s', L.scopes depth s.scope s'.scope → s.out = s'.out →
    L.Outcomes depth (r.runFrom host s) (r'.runFrom host s')

variable {L} {depth : Nat}

/-! ### Steps -/

theorem alike_pure (a : α) : L.Alike depth (pure a) (pure a) :=
  fun _ _ _ hs ho => ⟨.ok a, hs, ho⟩

theorem alike_throw (stop : Stop) : L.Alike depth (throw stop : Render α) (throw stop) :=
  fun _ _ _ hs ho => ⟨.stop (L.stops_refl stop), hs, ho⟩

theorem alike_lift (x : Except Error α) : L.Alike depth (lift x) (lift x) := by
  cases x with
  | ok a => exact alike_pure a
  | error e => exact alike_throw _

theorem Alike.bind {r r' : Render α} {f f' : α → Render β} (hr : L.Alike depth r r')
    (hf : ∀ a, L.Alike depth (f a) (f' a)) : L.Alike depth (r >>= f) (r' >>= f') := by
  intro host s s' hs ho
  have h := hr host s s' hs ho
  rw [runFrom_bind, runFrom_bind]
  generalize r.runFrom host s = x, r'.runFrom host s' = x' at h
  obtain ⟨x, t⟩ := x
  obtain ⟨x', t'⟩ := x'
  obtain ⟨hres, hscope, hout⟩ := h
  cases hres with
  | ok a => exact hf a host t t' hscope hout
  | stop h => exact ⟨.stop h, hscope, hout⟩

/-- The step is the same in both states. -/
theorem alike_of_eq {r : Render α} (x : Host → Scope → Except Stop α)
    (hr : ∀ host s, r.runFrom host s = (x host s.scope, s))
    (hx : ∀ host s s', L.scopes depth s s' → x host s = x host s') : L.Alike depth r r := by
  intro host s s' hs ho
  rw [hr, hr, hx host _ _ hs]
  refine ⟨?_, hs, ho⟩
  dsimp only
  cases x host s'.scope with
  | ok a => exact .ok a
  | error stop => exact .stop (L.stops_refl stop)

theorem alike_mode : L.Alike depth Render.mode Render.mode :=
  alike_of_eq (fun _ s => .ok s.mode) (fun _ _ => rfl) fun _ _ _ hs => by rw [L.mode hs]

theorem alike_read : L.Alike depth (read : Render Host) read :=
  alike_of_eq (fun host _ => .ok host) (fun _ _ => rfl) fun _ _ _ _ => rfl

theorem alike_valueAt (part : List Nat) (e : Expr) :
    L.Alike depth (valueAt part e) (valueAt part e) :=
  alike_of_eq (fun host s => (e.eval host s (part ++ [s.clock])).mapError Stop.error)
    (fun host s => runFrom_lift _ host s) fun _ _ _ hs => by rw [L.clock hs, L.eval hs]

theorem alike_write (text : String) : L.Alike depth (write text) (write text) :=
  fun _ _ _ hs ho => ⟨.ok (), hs, congrArg (· ++ text) ho⟩

theorem alike_modifyScope {f : Scope → Scope}
    (hf : ∀ s s', L.scopes depth s s' → L.scopes depth (f s) (f s')) :
    L.Alike depth (modifyScope f) (modifyScope f) :=
  fun _ _ _ hs ho => ⟨.ok (), hf _ _ hs, ho⟩

theorem Alike.located {r r' : Render α} (h : L.Alike depth r r') {offset offset' : Nat}
    (hp : L.places offset offset') :
    L.Alike depth (located offset r) (located offset' r') := by
  have hplaced : ∀ (offset : Nat) (r : Render α) (host : Host) (s : RenderState),
      (Render.located offset r).runFrom host s =
        ((r.runFrom host s).1.mapError (Stop.placedAt offset), (r.runFrom host s).2) := by
    intro offset r host s
    rw [runFrom_located]
    split
    · next he => rw [he]; rfl
    · next hne =>
      rcases hr : r.runFrom host s with ⟨_ | _, t⟩
      · next stop =>
        cases stop with
        | error e => exact absurd hr (hne e t)
        | exhausted => rfl
      · rfl
  intro host s s' hs ho
  have h := h host s s' hs ho
  rw [hplaced, hplaced]
  generalize r.runFrom host s = x, r'.runFrom host s' = x' at h
  obtain ⟨x, t⟩ := x
  obtain ⟨x', t'⟩ := x'
  obtain ⟨hres, hscope, hout⟩ := h
  refine ⟨?_, hscope, hout⟩
  cases hres with
  | ok a => exact .ok a
  | stop h => exact .stop (L.stops_placedAt hp h)

theorem Alike.framed {r r' : Render α} (h : L.Alike (depth + 1) r r') :
    L.Alike depth (framed r) (framed r') := by
  intro host s s' hs ho
  obtain ⟨hres, hscope, hout⟩ := h host s.push s'.push (L.push hs) ho
  exact ⟨hres, L.pop hscope, hout⟩

theorem Alike.aside {r r' : Render α} (h : L.Alike depth r r') :
    L.Alike depth (aside r) (aside r') := by
  intro host s s' hs ho
  have h := h host { s with out := "" } { s' with out := "" } hs rfl
  unfold Render.aside
  rw [runFrom_ofRun, runFrom_ofRun]
  generalize r.runFrom host { s with out := "" } = x,
    r'.runFrom host { s' with out := "" } = x' at h
  obtain ⟨x, t⟩ := x
  obtain ⟨x', t'⟩ := x'
  obtain ⟨hres, hscope, hout⟩ := h
  refine ⟨?_, hscope, ho⟩
  dsimp only at hout ⊢
  rw [hout]
  cases hres with
  | ok a => exact .ok _
  | stop h => exact .stop h

/-! ### Values -/

theorem alike_value (e : Expr) : L.Alike depth (value e) (value e) := alike_valueAt [] e

theorem alike_holds (e : Expr) : L.Alike depth (holds e) (holds e) :=
  (alike_value e).bind fun _ => alike_mode.bind fun _ => alike_pure _

theorem alike_lastingValue (e : Expr) : L.Alike depth (lastingValue e) (lastingValue e) :=
  (alike_value e).bind fun _ =>
    (alike_modifyScope fun _ _ hs => L.tick hs).bind fun _ => alike_pure _

theorem alike_writeValue (v : Value) : L.Alike depth (writeValue v) (writeValue v) :=
  alike_mode.bind fun _ => alike_write _

end Likeness

namespace Tag
open Render Likeness

variable {L : Likeness} {depth : Nat}

/-! ### Choices -/

/-- The same clause at places that match, rendered alike. -/
structure ClauseView.Alike (L : Likeness) (c c' : ClauseView) : Prop where
  args : c.args = c'.args
  places : L.places c.offset c'.offset
  run : ∀ depth, L.Alike depth c.run c'.run

/-- The same tag with bodies and clauses that are rendered alike. -/
structure View.Alike (L : Likeness) (v v' : View) : Prop where
  name : v.name = v'.name
  args : v.args = v'.args
  body : ∀ depth, L.Alike depth v.body v'.body
  clauses : List.Forall₂ (ClauseView.Alike L) v.clauses v'.clauses

theorem alike_runFirst {clauses clauses' : List ClauseView}
    {select select' : ClauseView → Render Bool}
    (hs : ∀ c c', ClauseView.Alike L c c' → L.Alike depth (select c) (select' c'))
    (hc : List.Forall₂ (ClauseView.Alike L) clauses clauses') :
    L.Alike depth (runFirst clauses select) (runFirst clauses' select') := by
  induction hc with
  | nil => exact alike_pure _
  | cons h _ ih =>
    refine (hs _ _ h).bind fun chosen => ?_
    cases chosen with
    | true => exact h.run depth
    | false => exact ih

theorem alike_conditionHolds {c c' : ClauseView} (h : ClauseView.Alike L c c') :
    L.Alike depth (conditionHolds c) (conditionHolds c') := by
  unfold conditionHolds
  rw [h.args]
  split
  · exact (alike_holds _).located h.places
  · exact alike_pure _

theorem alike_anyEquals {offset offset' : Nat} (hp : L.places offset offset') (subject : Value)
    (es : List Expr) :
    L.Alike depth (anyEquals offset subject es) (anyEquals offset' subject es) := by
  induction es with
  | nil => exact alike_pure _
  | cons e es ih =>
    refine ((alike_valueAt [1] e).located hp).bind fun v => ?_
    split
    · exact alike_pure _
    · exact ih

theorem alike_holdsSubject (subject : Value) {c c' : ClauseView} (h : ClauseView.Alike L c c') :
    L.Alike depth (holdsSubject subject c) (holdsSubject subject c') := by
  unfold holdsSubject
  rw [h.args]
  split
  · exact alike_anyEquals h.places subject _
  · exact alike_pure _

/-! ### Loops -/

theorem alike_runElse {v v' : View} (h : View.Alike L v v') :
    L.Alike depth (runElse v) (runElse v') := by
  have hc := h.clauses
  unfold runElse
  generalize v.clauses = clauses, v'.clauses = clauses' at hc
  cases hc with
  | nil => exact alike_pure _
  | cons hc _ => exact hc.run depth

theorem alike_countOf (e : Expr) : L.Alike depth (countOf e) (countOf e) :=
  (alike_value e).bind fun _ => (alike_lift _).bind fun _ => alike_pure _

theorem alike_dropItems (e : Option Expr) (items : List Value) :
    L.Alike depth (dropItems e items) (dropItems e items) := by
  cases e with
  | none => exact alike_pure _
  | some e => exact (alike_countOf e).bind fun _ => alike_pure _

theorem alike_takeItems (e : Option Expr) (items : List Value) :
    L.Alike depth (takeItems e items) (takeItems e items) := by
  cases e with
  | none => exact alike_pure _
  | some e => exact (alike_countOf e).bind fun _ => alike_pure _

theorem alike_chosenItems (head : LoopHead) (items : List Value) :
    L.Alike depth (chosenItems head items) (chosenItems head items) :=
  (alike_dropItems head.offset items).bind fun items =>
    (alike_takeItems head.limit items).bind fun _ => alike_pure _

theorem alike_loopItems (head : LoopHead) :
    L.Alike depth (loopItems head) (loopItems head) := by
  refine (alike_lastingValue _).bind fun v => alike_mode.bind fun mode => ?_
  split
  · exact alike_chosenItems _ _
  · exact (alike_lift _).bind fun _ => alike_chosenItems _ _

theorem alike_setLocal (name : String) (value : Value) :
    L.Alike (depth + 1) (modifyScope fun s => s.setLocal name value)
      (modifyScope fun s => s.setLocal name value) :=
  alike_modifyScope fun _ _ hs => L.setLocal hs name value

theorem alike_bindTargets (targets : List String) (item : Value) :
    L.Alike (depth + 1) (bindTargets targets item) (bindTargets targets item) := by
  have hall : ∀ bindings : List (String × Value), L.Alike (depth + 1)
      (bindings.forM fun b => modifyScope fun s => s.setLocal b.1 b.2)
      (bindings.forM fun b => modifyScope fun s => s.setLocal b.1 b.2) := by
    intro bindings
    induction bindings with
    | nil => exact alike_pure _
    | cons b bindings ih => exact (alike_setLocal b.1 b.2).bind fun _ => ih
  unfold bindTargets
  split
  · exact alike_setLocal _ item
  · refine (alike_lift _).bind fun values => ?_
    split
    · exact alike_throw _
    · exact hall _

theorem alike_forTurns (targets : List String) (info : String) (length : Nat)
    {body body' : Render Signal} (hb : L.Alike (depth + 1) body body') (index : Nat)
    (items : List Value) :
    L.Alike depth (forTurns targets info length body index items)
      (forTurns targets info length body' index items) := by
  induction items generalizing index with
  | nil => exact alike_pure _
  | cons item items ih =>
    have hturn : L.Alike depth (forTurn targets info length body index item)
        (forTurn targets info length body' index item) :=
      ((alike_bindTargets targets item).bind fun _ => (alike_setLocal _ _).bind fun _ => hb).framed
    rw [forTurns_cons, forTurns_cons]
    refine hturn.bind fun signal => ?_
    split
    · exact alike_pure _
    · exact ih _

theorem alike_whileTurns (cond : Expr) {body body' : Render Signal}
    (hb : L.Alike (depth + 1) body body') (n : Nat) :
    L.Alike depth (whileTurns cond body n) (whileTurns cond body' n) := by
  induction n with
  | zero => exact alike_throw _
  | succ n ih =>
    rw [whileTurns_succ, whileTurns_succ]
    refine (alike_holds cond).bind fun holds => ?_
    split
    · refine hb.framed.bind fun signal => ?_
      split
      · exact alike_pure _
      · exact ih
    · exact alike_pure _

/-! ### Behaviors -/

theorem alike_expr {v v' : View} (h : View.Alike L v v') : L.Alike depth v.expr v'.expr := by
  unfold View.expr
  rw [h.args, h.name]
  split
  · exact alike_pure _
  · exact alike_throw _

theorem alike_varName {v v' : View} (h : View.Alike L v v') :
    L.Alike depth v.varName v'.varName := by
  unfold View.varName
  rw [h.args, h.name]
  split
  · exact alike_pure _
  · exact alike_throw _

theorem alike_assigned (name : String) (value : Value) :
    L.Alike depth (modifyScope fun s => s.assign name value)
      (modifyScope fun s => s.assign name value) :=
  alike_modifyScope fun _ _ hs => L.assign hs name value

theorem alike_runFor {v v' : View} (h : View.Alike L v v') :
    L.Alike depth (runFor v) (runFor v') := by
  unfold runFor
  rw [h.args]
  split
  · refine (alike_loopItems _).bind fun items => alike_mode.bind fun mode => ?_
    refine (alike_forTurns _ _ _ (h.body _) 0 items).bind fun broke => ?_
    -- whichever way the dialect decides for the clause
    have either : ∀ b : Bool, L.Alike depth (if b then runElse v else pure Signal.normal)
        (if b then runElse v' else pure Signal.normal) := by
      intro b
      cases b with
      | true => exact alike_runElse h
      | false => exact alike_pure _
    exact either _
  · exact alike_throw _

theorem alike_runCounter (step : Int64) {v v' : View} (h : View.Alike L v v') :
    L.Alike depth (runCounter step v) (runCounter step v') := by
  refine (alike_varName h).bind fun name => ?_
  -- the counter is read from states that agree on it
  intro host s s' hs ho
  rw [runFrom_bind, runFrom_bind]
  change L.Outcomes depth (Render.runFrom (modifyScope _ >>= _) host s)
    (Render.runFrom (modifyScope _ >>= _) host s')
  rw [L.counter hs]
  exact ((alike_modifyScope fun _ _ hs => L.bump hs name step).bind fun _ =>
    (alike_write _).bind fun _ => alike_pure _) host s s' hs ho

/-- A built-in tag is rendered alike when its body and its clauses are. -/
theorem alike_run {b : Behavior} {v v' : View} (hhost : ∀ f, b ≠ .host f)
    (h : View.Alike L v v') : L.Alike depth (b.run v) (b.run v') := by
  cases b with
  | condition negated =>
    refine (alike_expr h).bind fun e => (alike_holds e).bind fun holds => ?_
    split
    · exact (h.body _).framed
    · exact alike_runFirst (fun _ _ hc => alike_conditionHolds hc) h.clauses
  | clause => exact (h.body _).framed
  | choice =>
    refine (alike_expr h).bind fun e => (alike_valueAt [0] e).bind fun subject => ?_
    exact alike_runFirst (fun _ _ hc => alike_holdsSubject subject hc) h.clauses
  | forLoop => exact alike_runFor h
  | whileLoop =>
    refine (alike_expr h).bind fun cond => alike_read.bind fun host => ?_
    refine (alike_whileTurns cond (h.body _) _).bind fun broke => ?_
    split
    · exact alike_pure _
    · exact alike_runElse h
  | control signal => exact alike_pure _
  | assign =>
    change L.Alike depth (runAssign v) (runAssign v')
    unfold runAssign
    rw [h.args]
    split
    · exact (alike_lastingValue _).bind fun _ => (alike_assigned _ _).bind fun _ => alike_pure _
    · exact alike_throw _
  | capture =>
    refine (alike_varName h).bind fun name => (h.body _).framed.aside.bind fun (signal, text) => ?_
    exact (alike_assigned _ _).bind fun _ => alike_pure _
  | echo =>
    refine (alike_expr h).bind fun e => (alike_value e).bind fun value => ?_
    exact (alike_writeValue value).bind fun _ => alike_pure _
  | counter step => exact alike_runCounter step h
  | host run => exact absurd rfl (hhost run)

end Tag

end TemplateEngine
