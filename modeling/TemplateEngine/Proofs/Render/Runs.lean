import TemplateEngine.Proofs.Except
import TemplateEngine.Render.Basic

/-!
# Runs of renderings

What the steps of a rendering do from a state, as equations for `runFrom`, what all results of a
rendering have in common (`Yields`), and how the scopes at its start and at its end are related
(`Keeps`).
-/

namespace TemplateEngine

/-- The state in a new frame. -/
def RenderState.push (s : RenderState) : RenderState := { s with scope := s.scope.push }

/-- The stop with a place, if it is an error without one. -/
def Stop.placedAt (offset : Nat) : Stop → Stop
  | .error e => .error (e.placedAt offset)
  | .exhausted => .exhausted

/-- The stop is a render error with a place, or a loop ran too often. -/
inductive Stop.Placed : Stop → Prop where
  | error (f : RenderFault) (offset : Nat) : Placed (.error (.render f (some offset)))
  | exhausted : Placed .exhausted

theorem Stop.Placed.placedAt {stop : Stop} (h : stop.Placed) (offset : Nat) :
    stop.placedAt offset = stop := by
  cases h <;> rfl

namespace Render

variable {α β : Type}

/-! ### Steps -/

theorem runFrom_ofRun (f : Host → RenderState → Except Stop α × RenderState) (host : Host)
    (s : RenderState) : (ofRun f).runFrom host s = f host s := rfl

theorem runFrom_bind (r : Render α) (f : α → Render β) (host : Host) (s : RenderState) :
    (r >>= f).runFrom host s =
      match r.runFrom host s with
      | (.ok a, s') => (f a).runFrom host s'
      | (.error e, s') => (.error e, s') := by
  cases h : r.runFrom host s with
  | mk x s' =>
    have hr : r host s = (x, s') := h
    change (r >>= f) host s = _
    simp only [bind, ReaderT.bind, ExceptT.bind, StateT.bind, ExceptT.mk]
    rw [hr]
    cases x <;> rfl

theorem runFrom_bind_ok {r : Render α} {f : α → Render β} {host : Host} {s s' : RenderState} {b : β}
    (h : (r >>= f).runFrom host s = (.ok b, s')) :
    ∃ a s₁, r.runFrom host s = (.ok a, s₁) ∧ (f a).runFrom host s₁ = (.ok b, s') := by
  rw [runFrom_bind] at h
  split at h
  · next a s₁ hr => exact ⟨a, s₁, hr, h⟩
  · cases h

theorem runFrom_located_ok {offset : Nat} {r : Render α} {host : Host} {s s' : RenderState} {a : α}
    (h : (located offset r).runFrom host s = (.ok a, s')) : r.runFrom host s = (.ok a, s') := by
  unfold located at h
  rw [runFrom_ofRun] at h
  split at h
  · cases h
  · exact h

theorem runFrom_lift (x : Except Error α) (host : Host) (s : RenderState) :
    (lift x).runFrom host s = (x.mapError Stop.error, s) := by
  cases x <;> rfl

theorem runFrom_value (e : Expr) (host : Host) (s : RenderState) :
    (value e).runFrom host s =
      ((e.eval host s.scope [s.scope.clock]).mapError Stop.error, s) :=
  runFrom_lift _ host s

theorem runFrom_located (offset : Nat) (r : Render α) (host : Host) (s : RenderState) :
    (located offset r).runFrom host s =
      match r.runFrom host s with
      | (.error (.error e), s') => (.error (.error (e.placedAt offset)), s')
      | result => result := rfl

/-! ### Stops -/

theorem runFrom_bind_error {r : Render α} {f : α → Render β} {host : Host} {s s' : RenderState}
    {stop : Stop} (h : (r >>= f).runFrom host s = (.error stop, s')) :
    r.runFrom host s = (.error stop, s') ∨
      ∃ a s₁, r.runFrom host s = (.ok a, s₁) ∧ (f a).runFrom host s₁ = (.error stop, s') := by
  rw [runFrom_bind] at h
  split at h
  · next a s₁ hr => exact .inr ⟨a, s₁, hr, h⟩
  · next e s₁ hr =>
    cases h
    exact .inl hr

theorem framed_error {r : Render α} {host : Host} {s s' : RenderState} {stop : Stop}
    (h : (framed r).runFrom host s = (.error stop, s')) :
    ∃ s₁, r.runFrom host s.push = (.error stop, s₁) := by
  unfold framed at h
  rw [runFrom_ofRun] at h
  cases hr : r.runFrom host s.push with
  | mk result s₁ =>
    rw [show ({ s with scope := s.scope.push } : RenderState) = s.push from rfl, hr] at h
    cases h
    exact ⟨s₁, rfl⟩

theorem aside_error {r : Render α} {host : Host} {s s' : RenderState} {stop : Stop}
    (h : (aside r).runFrom host s = (.error stop, s')) :
    ∃ s₁, r.runFrom host { s with out := "" } = (.error stop, s₁) := by
  unfold aside at h
  rw [runFrom_ofRun] at h
  cases hr : r.runFrom host { s with out := "" } with
  | mk result s₁ =>
    rw [hr] at h
    cases result with
    | error stop' =>
      cases h
      exact ⟨s₁, rfl⟩
    | ok a => cases h

theorem located_error {r : Render α} {offset : Nat} {host : Host} {s s' : RenderState} {stop : Stop}
    (h : (located offset r).runFrom host s = (.error stop, s')) :
    ∃ stop', r.runFrom host s = (.error stop', s') ∧ stop = stop'.placedAt offset := by
  rw [runFrom_located] at h
  split at h
  · next e s₁ hr =>
    cases h
    exact ⟨.error e, hr, rfl⟩
  · next hr =>
    cases stop with
    | error e => exact absurd h (hr e s')
    | exhausted => exact ⟨.exhausted, h, rfl⟩

/-! ### Results -/

/-- Every result of the rendering is one of these. -/
def Yields (r : Render α) (P : α → Prop) : Prop :=
  ∀ host s a s', r.runFrom host s = (.ok a, s') → P a

theorem yields_pure {P : α → Prop} {a : α} (h : P a) : Yields (pure a) P := by
  intro host s b s' e
  cases e
  exact h

theorem yields_fault (f : RenderFault) (P : α → Prop) : Yields (fault f) P := by
  intro host s b s' e
  cases e

theorem Yields.bind {P : α → Prop} {Q : β → Prop} {r : Render α} {f : α → Render β}
    (hr : r.Yields P) (hf : ∀ a, P a → (f a).Yields Q) : (r >>= f).Yields Q := by
  intro host s b s' e
  obtain ⟨a, s₁, h₁, h₂⟩ := runFrom_bind_ok e
  exact hf a (hr host s a s₁ h₁) host s₁ b s' h₂

/-- The results of the last step are the results. -/
theorem yields_bind {Q : β → Prop} {r : Render α} {f : α → Render β} (hf : ∀ a, (f a).Yields Q) :
    (r >>= f).Yields Q :=
  Yields.bind (P := fun _ => True) (fun _ _ _ _ _ => trivial) fun a _ => hf a

theorem Yields.located {P : α → Prop} {r : Render α} (h : r.Yields P) (offset : Nat) :
    (located offset r).Yields P :=
  fun host s a s' e => h host s a s' (runFrom_located_ok e)

theorem Yields.framed {P : α → Prop} {r : Render α} (h : r.Yields P) : (framed r).Yields P := by
  intro host s a s' e
  unfold Render.framed at e
  rw [runFrom_ofRun] at e
  cases hr : r.runFrom host { s with scope := s.scope.push } with
  | mk x s₁ =>
    rw [hr] at e
    cases e
    exact h host _ a s₁ hr

theorem Yields.aside {P : α → Prop} {r : Render α} (h : r.Yields P) :
    (aside r).Yields fun x => P x.1 := by
  intro host s ⟨a, text⟩ s' e
  unfold Render.aside at e
  rw [runFrom_ofRun] at e
  cases hr : r.runFrom host { s with out := "" } with
  | mk x s₁ =>
    rw [hr] at e
    obtain ⟨b, rfl, hb⟩ := map_eq_ok_iff.mp (congrArg Prod.fst e)
    cases hb
    exact h host _ a s₁ hr

/-! ### Scopes -/

/-- However the rendering ends, the scopes at its start and at its end are related. -/
def Keeps (R : Scope → Scope → Prop) (r : Render α) : Prop :=
  ∀ host s, R s.scope (r.runFrom host s).2.scope

section Keeps

variable {R : Scope → Scope → Prop}

theorem keeps_pure (hR : ∀ s, R s s) (a : α) : Keeps R (pure a) := fun _ s => hR s.scope

theorem keeps_read (hR : ∀ s, R s s) : Keeps R (read : Render Host) := fun _ s => hR s.scope

theorem keeps_get (hR : ∀ s, R s s) : Keeps R (get : Render RenderState) := fun _ s => hR s.scope

theorem keeps_fault (hR : ∀ s, R s s) (f : RenderFault) : Keeps R (fault f : Render α) :=
  fun _ s => hR s.scope

theorem keeps_write (hR : ∀ s, R s s) (text : String) : Keeps R (write text) :=
  fun _ s => hR s.scope

theorem keeps_lift (hR : ∀ s, R s s) (x : Except Error α) : Keeps R (lift x) := by
  intro host s
  rw [runFrom_lift]
  exact hR s.scope

theorem keeps_modifyScope {f : Scope → Scope} (h : ∀ s, R s (f s)) : Keeps R (modifyScope f) :=
  fun _ s => h s.scope

theorem Keeps.bind (hR : ∀ s t u, R s t → R t u → R s u) {r : Render α} {f : α → Render β}
    (hr : r.Keeps R) (hf : ∀ a, (f a).Keeps R) : (r >>= f).Keeps R := by
  intro host s
  have h := hr host s
  rw [runFrom_bind]
  split
  · next a s' e =>
    rw [e] at h
    exact hR _ _ _ h (hf a host s')
  · next e s' e' =>
    rw [e'] at h
    exact h

theorem Keeps.located {r : Render α} (h : r.Keeps R) (offset : Nat) :
    (located offset r).Keeps R := by
  intro host s
  have hs := h host s
  rw [runFrom_located]
  split
  · next e s' e' =>
    rw [e'] at hs
    exact hs
  · exact hs

theorem Keeps.aside {r : Render α} (h : r.Keeps R) : (aside r).Keeps R :=
  fun host s => h host { s with out := "" }

end Keeps

end Render

end TemplateEngine
