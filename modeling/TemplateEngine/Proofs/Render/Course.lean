import TemplateEngine.Proofs.Render.Turns

/-!
# Courses of tags

What happens in a built-in tag, told without its code: which answer the head of a clause gives
(`Answers`), which turns a loop takes (`ForGoes`, `WhileGoes`), and in which states its expressions
are evaluated and its body is entered.  Each function of the behaviors is described by one lemma on
how it can end.
-/

namespace TemplateEngine

namespace Render

/-- The value of an expression in a state. -/
def valueIn (host : Host) (s : RenderState) (part : List Nat) (e : Expr) : Except Error Value :=
  e.eval host s.scope (part ++ [s.scope.clock])

variable {α β : Type} {host : Host}

theorem runFrom_valueAt (part : List Nat) (e : Expr) (host : Host) (s : RenderState) :
    (valueAt part e).runFrom host s = ((valueIn host s part e).mapError Stop.error, s) :=
  runFrom_lift _ host s

theorem valueIn_cases {host : Host} (hh : host.FailsUnplaced) (s : RenderState) (part : List Nat)
    (e : Expr) :
    (∃ v, valueIn host s part e = .ok v) ∨ ∃ f, valueIn host s part e = fail f := by
  cases h : valueIn host s part e with
  | ok v => exact .inl ⟨v, rfl⟩
  | error err =>
    obtain ⟨f, rfl⟩ := Expr.unplaced_eval hh s.scope _ e err h
    exact .inr ⟨f, rfl⟩

theorem runFrom_holds (e : Expr) (host : Host) (s : RenderState) :
    (holds e).runFrom host s =
      (((valueIn host s [] e).map fun v => v.truthy s.scope.mode).mapError Stop.error, s) := by
  unfold holds value
  rw [runFrom_bind, runFrom_valueAt]
  cases valueIn host s [] e <;> rfl

theorem value_error (hh : host.FailsUnplaced) {e : Expr} {s s' : RenderState} {stop : Stop}
    (h : (value e).runFrom host s = (.error stop, s')) :
    ∃ f, valueIn host s [] e = fail f ∧ stop = .error (.failed f) := by
  rcases valueIn_cases hh s [] e with ⟨v, hv⟩ | ⟨f, hf⟩
  · rw [show value e = valueAt [] e from rfl, runFrom_valueAt, hv] at h
    cases h
  · rw [show value e = valueAt [] e from rfl, runFrom_valueAt, hf] at h
    cases h
    exact ⟨f, hf, rfl⟩

theorem lastingValue_error (hh : host.FailsUnplaced) {e : Expr} {s s' : RenderState} {stop : Stop}
    (h : (lastingValue e).runFrom host s = (.error stop, s')) :
    ∃ f, valueIn host s [] e = fail f ∧ stop = .error (.failed f) := by
  rcases runFrom_bind_error h with h | ⟨v, s₁, -, h⟩
  · exact value_error hh h
  · cases h

/-- The rendering stops with faults that have no place yet, if it stops. -/
def StopsUnplaced (host : Host) (r : Render α) : Prop :=
  ∀ s stop s', r.runFrom host s = (.error stop, s') → ∃ f, stop = .error (.failed f)

theorem stopsUnplaced_pure (a : α) : StopsUnplaced host (pure a) := by
  intro s stop s' h
  cases h

theorem stopsUnplaced_lift {x : Except Error α} (hx : Unplaced x) : StopsUnplaced host (lift x) := by
  intro s stop s' h
  rw [runFrom_lift] at h
  cases x with
  | ok a => cases h
  | error e =>
    obtain ⟨f, rfl⟩ := hx e rfl
    cases h
    exact ⟨f, rfl⟩

theorem StopsUnplaced.bind {r : Render α} {f : α → Render β} (hr : StopsUnplaced host r)
    (hf : ∀ a, StopsUnplaced host (f a)) : StopsUnplaced host (r >>= f) := by
  intro s stop s' h
  rcases runFrom_bind_error h with h | ⟨a, s₁, -, h⟩
  · exact hr s stop s' h
  · exact hf a s₁ stop s' h

theorem stopsUnplaced_value (hh : host.FailsUnplaced) (e : Expr) :
    StopsUnplaced host (value e) := by
  intro s stop s' h
  exact stopsUnplaced_lift (Expr.unplaced_eval hh s.scope [s.scope.clock] e) s stop s' h

end Render

namespace Tag
open Render

variable {host : Host}

/-! ### Answers of clauses -/

/-- What the head of a clause answers in a state: to `if` and its kin, which ask for no subject,
whether its condition holds, and to `case` whether one of its values equals the subject.  A head
without a condition or without values answers yes. -/
inductive Answers (host : Host) (s : RenderState) :
    Option Value → Args → Except RenderFault Bool → Prop where
  | condition {e : Expr} {v : Value} (h : valueIn host s [] e = .ok v) :
      Answers host s none (.expr e) (.ok (v.truthy s.scope.mode))
  | conditionFails {e : Expr} {f : RenderFault} (h : valueIn host s [] e = fail f) :
      Answers host s none (.expr e) (.error f)
  | unconditional {args : Args} (h : ∀ e, args ≠ .expr e) : Answers host s none args (.ok true)
  | noValue {subject : Value} : Answers host s (some subject) (.exprList []) (.ok false)
  | equal {subject v : Value} {e : Expr} {es : List Expr} (h : valueIn host s [1] e = .ok v)
      (he : v.equals subject = true) : Answers host s (some subject) (.exprList (e :: es)) (.ok true)
  | valueFails {subject : Value} {e : Expr} {es : List Expr} {f : RenderFault}
      (h : valueIn host s [1] e = fail f) :
      Answers host s (some subject) (.exprList (e :: es)) (.error f)
  | differs {subject v : Value} {e : Expr} {es : List Expr} {answer : Except RenderFault Bool}
      (h : valueIn host s [1] e = .ok v) (he : v.equals subject = false)
      (hes : Answers host s (some subject) (.exprList es) answer) :
      Answers host s (some subject) (.exprList (e :: es)) answer
  | anyValue {subject : Value} {args : Args} (h : ∀ es, args ≠ .exprList es) :
      Answers host s (some subject) args (.ok true)

/-- The test of a clause about a subject. -/
def test : Option Value → ClauseView → Render Bool
  | none => conditionHolds
  | some subject => holdsSubject subject

theorem runFrom_anyEquals (hh : host.FailsUnplaced) (offset : Nat) (subject : Value)
    (es : List Expr) (s : RenderState) :
    ∃ answer, Answers host s (some subject) (.exprList es) answer ∧
      (anyEquals offset subject es).runFrom host s =
        (answer.mapError fun f => .error (.render f (some offset)), s) := by
  induction es with
  | nil => exact ⟨_, .noValue, rfl⟩
  | cons e es ih =>
    obtain ⟨answer, ha, hes⟩ := ih
    rw [anyEquals, runFrom_bind, runFrom_located, runFrom_valueAt]
    rcases valueIn_cases hh s [1] e with ⟨v, hv⟩ | ⟨f, hf⟩
    · rw [hv]
      cases heq : v.equals subject with
      | true =>
        refine ⟨_, .equal hv heq, ?_⟩
        simp only [Except.mapError, heq, if_true]
        rfl
      | false =>
        refine ⟨answer, .differs hv heq ha, ?_⟩
        simpa [Except.mapError, heq] using hes
    · rw [hf]
      exact ⟨_, .valueFails hf, rfl⟩

/-- A test leaves the state as it is; when it fails, it is at the clause. -/
theorem runFrom_test (hh : host.FailsUnplaced) (subject : Option Value) (c : ClauseView)
    (s : RenderState) :
    ∃ answer, Answers host s subject c.args answer ∧
      (test subject c).runFrom host s =
        (answer.mapError fun f => .error (.render f (some c.offset)), s) := by
  cases subject with
  | none =>
    change ∃ answer, _ ∧ (conditionHolds c).runFrom host s = _
    unfold conditionHolds
    split
    · next e hc =>
      rw [hc, runFrom_located, runFrom_holds]
      rcases valueIn_cases hh s [] e with ⟨v, hv⟩ | ⟨f, hf⟩
      · rw [hv]
        exact ⟨_, .condition hv, rfl⟩
      · rw [hf]
        exact ⟨_, .conditionFails hf, rfl⟩
    · next hc => exact ⟨_, .unconditional hc, rfl⟩
  | some subject =>
    change ∃ answer, _ ∧ (holdsSubject subject c).runFrom host s = _
    unfold holdsSubject
    split
    · next es hc =>
      rw [hc]
      exact runFrom_anyEquals hh _ _ _ _
    · next hc => exact ⟨_, .anyValue hc, rfl⟩

/-- Clauses that stop are stopped by the test of one of them or by the clause that is chosen; the
clauses before it have answered no. -/
theorem runFirst_error (hh : host.FailsUnplaced) {subject : Option Value}
    {clauses : List ClauseView} {s s' : RenderState} {stop : Stop}
    (h : (runFirst clauses (test subject)).runFrom host s = (.error stop, s')) :
    ∃ earlier c later, clauses = earlier ++ c :: later ∧
      (∀ d ∈ earlier, Answers host s subject d.args (.ok false)) ∧
      ((∃ f, Answers host s subject c.args (.error f) ∧
          stop = .error (.render f (some c.offset))) ∨
        (Answers host s subject c.args (.ok true) ∧ c.run.runFrom host s = (.error stop, s'))) := by
  induction clauses with
  | nil => cases h
  | cons c more ih =>
    obtain ⟨answer, ha, hrun⟩ := runFrom_test hh subject c s
    rw [runFirst, runFrom_bind, hrun] at h
    cases answer with
    | error f =>
      cases h
      exact ⟨[], c, more, rfl, by simp, .inl ⟨f, ha, rfl⟩⟩
    | ok chosen =>
      cases chosen with
      | true => exact ⟨[], c, more, rfl, by simp, .inr ⟨ha, h⟩⟩
      | false =>
        obtain ⟨earlier, d, later, rfl, hearlier, hd⟩ := ih h
        refine ⟨c :: earlier, d, later, rfl, ?_, hd⟩
        intro x hx
        rcases List.mem_cons.mp hx with rfl | hx
        · exact ha
        · exact hearlier x hx

/-! ### Items of loops -/

theorem stopsUnplaced_countOf (hh : host.FailsUnplaced) (e : Expr) :
    StopsUnplaced host (countOf e) :=
  (stopsUnplaced_value hh e).bind fun v =>
    (stopsUnplaced_lift v.unplaced_toInt).bind fun _ => stopsUnplaced_pure _

theorem stopsUnplaced_dropItems (hh : host.FailsUnplaced) (e : Option Expr) (items : List Value) :
    StopsUnplaced host (dropItems e items) := by
  cases e with
  | none => exact stopsUnplaced_pure _
  | some e => exact (stopsUnplaced_countOf hh e).bind fun _ => stopsUnplaced_pure _

theorem stopsUnplaced_takeItems (hh : host.FailsUnplaced) (e : Option Expr) (items : List Value) :
    StopsUnplaced host (takeItems e items) := by
  cases e with
  | none => exact stopsUnplaced_pure _
  | some e => exact (stopsUnplaced_countOf hh e).bind fun _ => stopsUnplaced_pure _

theorem stopsUnplaced_chosenItems (hh : host.FailsUnplaced) (head : LoopHead)
    (items : List Value) : StopsUnplaced host (chosenItems head items) :=
  (stopsUnplaced_dropItems hh head.offset items).bind fun items =>
    (stopsUnplaced_takeItems hh head.limit items).bind fun _ => stopsUnplaced_pure _

theorem stopsUnplaced_lastingValue (hh : host.FailsUnplaced) (e : Expr) :
    StopsUnplaced host (lastingValue e) := by
  refine (stopsUnplaced_value hh e).bind fun v => ?_
  intro s stop s' h
  cases h

theorem stopsUnplaced_loopItems (hh : host.FailsUnplaced) (head : LoopHead) :
    StopsUnplaced host (loopItems head) := by
  refine (stopsUnplaced_lastingValue hh _).bind fun v => ?_
  refine StopsUnplaced.bind (fun s stop s' h => by cases h) fun mode => ?_
  split
  · exact stopsUnplaced_chosenItems hh _ _
  · exact (stopsUnplaced_lift (Value.unplaced_iterate _)).bind fun items =>
      stopsUnplaced_chosenItems hh _ _

/-! ### Turns of loops -/

/-- Turn after turn, none of which breaks the loop off, a loop over items goes on from a state before
some of its items to a state before later ones. -/
inductive ForGoes (host : Host) (targets : List String) (info : String) (length : Nat)
    (body : Render Signal) :
    Nat → List Value → RenderState → Nat → List Value → RenderState → Prop where
  | here (index : Nat) (items : List Value) (s : RenderState) :
      ForGoes host targets info length body index items s index items s
  | turn {index index' : Nat} {item : Value} {items items' : List Value} {s s₁ s' : RenderState}
      {signal : Signal}
      (h : (forTurn targets info length body index item).runFrom host s = (.ok signal, s₁))
      (hs : signal ≠ .breakLoop)
      (more : ForGoes host targets info length body (index + 1) items s₁ index' items' s') :
      ForGoes host targets info length body index (item :: items) s index' items' s'

/-- Turns of a `while` loop, none of which breaks it off, from a state to a later one; the numbers
are those of the turns that the host still allows. -/
inductive WhileGoes (host : Host) (cond : Expr) (body : Render Signal) :
    Nat → RenderState → Nat → RenderState → Prop where
  | here (n : Nat) (s : RenderState) : WhileGoes host cond body n s n s
  | turn {n n' : Nat} {s s₁ s' : RenderState} {v : Value} {signal : Signal}
      (hv : valueIn host s [] cond = .ok v) (ht : v.truthy s.scope.mode = true)
      (h : (framed body).runFrom host s = (.ok signal, s₁)) (hs : signal ≠ .breakLoop)
      (more : WhileGoes host cond body n s₁ n' s') : WhileGoes host cond body (n + 1) s n' s'

section
variable {targets : List String} {info : String} {length index : Nat} {body : Render Signal}
  {items : List Value} {s s' : RenderState} {stop : Stop}

/-- A loop over items stops in one of its turns. -/
theorem forTurns_error
    (h : (forTurns targets info length body index items).runFrom host s = (.error stop, s')) :
    ∃ i item rest s₁, ForGoes host targets info length body index items s i (item :: rest) s₁ ∧
      (forTurn targets info length body i item).runFrom host s₁ = (.error stop, s') := by
  induction items generalizing index s with
  | nil => cases h
  | cons item items ih =>
    rw [forTurns_cons] at h
    rcases runFrom_bind_error h with h | ⟨signal, s₁, hturn, h⟩
    · exact ⟨index, item, items, s, .here .., h⟩
    · split at h
      · cases h
      · next hs =>
        obtain ⟨i, item', rest, s₂, hgoes, hstop⟩ := ih h
        exact ⟨i, item', rest, s₂, .turn hturn hs hgoes, hstop⟩

/-- A loop over items that is not broken off goes through all of them. -/
theorem forTurns_false
    (h : (forTurns targets info length body index items).runFrom host s = (.ok false, s')) :
    ∃ i, ForGoes host targets info length body index items s i [] s' := by
  induction items generalizing index s with
  | nil =>
    cases h
    exact ⟨index, .here ..⟩
  | cons item items ih =>
    rw [forTurns_cons] at h
    obtain ⟨signal, s₁, hturn, h⟩ := runFrom_bind_ok h
    split at h
    · cases h
    · next hs =>
      obtain ⟨i, hgoes⟩ := ih h
      exact ⟨i, .turn hturn hs hgoes⟩

/-- A turn stops while its targets are bound or in the body. -/
theorem forTurn_error {item : Value}
    (h : (forTurn targets info length body index item).runFrom host s = (.error stop, s')) :
    (∃ f, (bindTargets targets item).runFrom host s.push = (.error (.error (.failed f)), s.push) ∧
        stop = .error (.failed f)) ∨
      ∃ s₁ s₂, (bindTargets targets item).runFrom host s.push = (.ok (), s₁) ∧
        body.runFrom host { s₁ with scope := s₁.scope.setLocal info (loopInfo index length) } =
          (.error stop, s₂) := by
  obtain ⟨s₂, h⟩ := framed_error h
  rcases runFrom_bindTargets targets item host s.push with ⟨f, hf⟩ | ⟨bindings, -, hok⟩
  · rw [runFrom_bind, hf] at h
    cases h
    exact .inl ⟨f, hf, rfl⟩
  · rw [runFrom_bind, hok] at h
    exact .inr ⟨_, s₂, hok, h⟩

/-- A `while` loop stops because its turns are used up, or in a condition, or in a body. -/
theorem whileTurns_error (hh : host.FailsUnplaced) {cond : Expr} {n : Nat}
    (h : (whileTurns cond body n).runFrom host s = (.error stop, s')) :
    ∃ k s₁, WhileGoes host cond body n s k s₁ ∧
      ((k = 0 ∧ stop = .exhausted) ∨
        ∃ m, k = m + 1 ∧
          ((∃ f, valueIn host s₁ [] cond = fail f ∧ stop = .error (.failed f)) ∨
            ∃ v s₂, valueIn host s₁ [] cond = .ok v ∧ v.truthy s₁.scope.mode = true ∧
              body.runFrom host s₁.push = (.error stop, s₂))) := by
  induction n generalizing s with
  | zero =>
    cases h
    exact ⟨0, _, .here .., .inl ⟨rfl, rfl⟩⟩
  | succ n ih =>
    rw [whileTurns_succ, runFrom_bind, runFrom_holds] at h
    rcases valueIn_cases hh s [] cond with ⟨v, hv⟩ | ⟨f, hf⟩
    · rw [hv] at h
      simp only [Except.map, Except.mapError] at h
      split at h
      · next ht =>
        rcases runFrom_bind_error h with h | ⟨signal, s₁, hbody, h⟩
        · obtain ⟨s₂, h⟩ := framed_error h
          exact ⟨n + 1, s, .here .., .inr ⟨n, rfl, .inr ⟨v, s₂, hv, ht, h⟩⟩⟩
        · split at h
          · cases h
          · next hs =>
            obtain ⟨k, s₂, hgoes, hstop⟩ := ih h
            exact ⟨k, s₂, .turn hv ht hbody hs hgoes, hstop⟩
      · cases h
    · rw [hf] at h
      cases h
      exact ⟨n + 1, _, .here .., .inr ⟨n, rfl, .inl ⟨f, hf, rfl⟩⟩⟩

/-- A `while` loop that is not broken off ends when its condition does not hold. -/
theorem whileTurns_false (hh : host.FailsUnplaced) {cond : Expr} {n : Nat}
    (h : (whileTurns cond body n).runFrom host s = (.ok false, s')) :
    ∃ m v, WhileGoes host cond body n s (m + 1) s' ∧ valueIn host s' [] cond = .ok v ∧
      v.truthy s'.scope.mode = false := by
  induction n generalizing s with
  | zero => cases h
  | succ n ih =>
    rw [whileTurns_succ, runFrom_bind, runFrom_holds] at h
    rcases valueIn_cases hh s [] cond with ⟨v, hv⟩ | ⟨f, hf⟩
    · rw [hv] at h
      simp only [Except.map, Except.mapError] at h
      split at h
      · next ht =>
        obtain ⟨signal, s₁, hbody, h⟩ := runFrom_bind_ok h
        split at h
        · cases h
        · next hs =>
          obtain ⟨m, w, hgoes, hw⟩ := ih h
          exact ⟨m, w, .turn hv ht hbody hs hgoes, hw⟩
      · next ht =>
        cases h
        exact ⟨n, v, .here .., hv, by simpa using ht⟩
    · rw [hf] at h
      cases h

end

end Tag

end TemplateEngine
