import TemplateEngine.Proofs.Expr.Faults
import TemplateEngine.Proofs.Render.Runs
import TemplateEngine.Tag.Behavior

/-!
# Turns of loops

The frame of a turn of a `for` loop is that of its block with the targets and the place of the turn
bound in it.  Binding them fails before the first of them is bound, or not at all.
-/

namespace TemplateEngine

namespace Scope

/-- The names bound one after another in the innermost frame. -/
def bindLocals (s : Scope) (bindings : List (String × Value)) : Scope :=
  bindings.foldl (fun s b => s.setLocal b.1 b.2) s

end Scope

namespace Tag
open Render

theorem runFrom_setLocals (bindings : List (String × Value)) (host : Host) (s : RenderState) :
    (bindings.forM fun b => modifyScope fun s => s.setLocal b.1 b.2 : Render Unit).runFrom host s =
      (.ok (), { s with scope := s.scope.bindLocals bindings }) := by
  induction bindings generalizing s with
  | nil => rfl
  | cons b bindings ih => exact ih _

/-- Targets are bound all or none. -/
theorem runFrom_bindTargets (targets : List String) (item : Value) (host : Host) (s : RenderState) :
    (∃ f, (bindTargets targets item).runFrom host s = (.error (.error (.failed f)), s)) ∨
      ∃ bindings, bindings.map Prod.fst = targets ∧ (bindTargets targets item).runFrom host s =
        (.ok (), { s with scope := s.scope.bindLocals bindings }) := by
  unfold bindTargets
  split
  · next target => exact .inr ⟨[(target, item)], rfl, rfl⟩
  · rw [runFrom_bind, runFrom_lift]
    cases he : item.iterate with
    | error e =>
      obtain ⟨f, rfl⟩ := item.unplaced_iterate e he
      exact .inl ⟨f, rfl⟩
    | ok values =>
      simp only [Except.mapError]
      split
      · exact .inl ⟨_, rfl⟩
      · next hlen => exact .inr ⟨_, List.map_fst_zip (by omega), runFrom_setLocals _ host s⟩

/-- One turn of a loop over items, in a frame of its own. -/
def forTurn (targets : List String) (info : String) (length : Nat) (body : Render Signal)
    (index : Nat) (item : Value) : Render Signal :=
  framed do
    bindTargets targets item
    modifyScope fun s => s.setLocal info (loopInfo index length)
    body

/-- A turn leaves everything as it is when its targets cannot be bound.  Else its body is rendered
in a frame with the targets and the place of the turn, which is dropped afterwards. -/
theorem runFrom_forTurn (targets : List String) (info : String) (length : Nat)
    (body : Render Signal) (index : Nat) (item : Value) (host : Host) (s : RenderState) :
    (∃ f, (forTurn targets info length body index item).runFrom host s =
        (.error (.error (.failed f)), s)) ∨
      ∃ bindings, bindings.map Prod.fst = targets ++ [info] ∧
        (forTurn targets info length body index item).runFrom host s =
          let ended := body.runFrom host { s with scope := s.scope.push.bindLocals bindings }
          (ended.1, { ended.2 with scope := ended.2.scope.pop }) := by
  unfold forTurn Render.framed
  rw [runFrom_ofRun, runFrom_bind]
  rcases runFrom_bindTargets targets item host { s with scope := s.scope.push } with
    ⟨f, hf⟩ | ⟨bindings, hnames, hok⟩
  · exact .inl ⟨f, by rw [hf]; rfl⟩
  · refine .inr ⟨bindings ++ [(info, loopInfo index length)], by simp [hnames], ?_⟩
    have hbind : s.scope.push.bindLocals (bindings ++ [(info, loopInfo index length)]) =
        (s.scope.push.bindLocals bindings).setLocal info (loopInfo index length) :=
      List.foldl_append
    rw [hok, hbind]
    rfl

theorem forTurns_cons (targets : List String) (info : String) (length : Nat)
    (body : Render Signal) (index : Nat) (item : Value) (items : List Value) :
    forTurns targets info length body index (item :: items) =
      (forTurn targets info length body index item >>= fun signal =>
        if signal = .breakLoop then pure true
        else forTurns targets info length body (index + 1) items) := rfl

theorem whileTurns_succ (cond : Expr) (body : Render Signal) (n : Nat) :
    whileTurns cond body (n + 1) =
      (holds cond >>= fun holds =>
        if holds then framed body >>= fun signal =>
          if signal = .breakLoop then pure true else whileTurns cond body n
        else pure false) := by
  rfl

end Tag

end TemplateEngine
