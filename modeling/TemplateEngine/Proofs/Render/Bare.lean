import TemplateEngine.Proofs.Markup.Bare
import TemplateEngine.Proofs.Markup.BuiltIn
import TemplateEngine.Proofs.Render.Likeness
import TemplateEngine.Template

/-!
# Rendering bare trees

Where a tag stands shows in the places of its errors and nowhere else, and texts side by side write
what one text writes.  So a tree of built-in tags is rendered like the bare tree (`alike_bareAll`),
and trees that agree when they are bare are rendered alike (`Template.renderNodes_bare`).
-/

namespace TemplateEngine

/-- The stop without its place. -/
def Stop.bare : Stop → Stop
  | .error (.render f _) => .error (.render f none)
  | stop => stop

theorem Stop.bare_placedAt (stop : Stop) (offset : Nat) :
    (stop.placedAt offset).bare = stop.bare := by
  cases stop with
  | exhausted => rfl
  | error e =>
    cases e with
    | render f offset => cases offset <;> rfl
    | parse | registry => rfl

/-- The same scope, and stops that agree without their places. -/
def Likeness.upToPlaces : Likeness where
  scopes _ s s' := s = s'
  stops stop stop' := stop.bare = stop'.bare
  places _ _ := True
  stops_refl _ := rfl
  stops_placedAt _ h := by rw [Stop.bare_placedAt, Stop.bare_placedAt, h]
  mode h := by rw [h]
  clock h := by rw [h]
  counter h := by rw [h]
  eval h _ _ _ := by rw [h]
  tick h := by rw [h]
  bump h _ _ := by rw [h]
  assign h _ _ := by rw [h]
  setLocal h _ _ := by rw [h]
  push h := by rw [h]
  pop h := by rw [h]

/-- Steps that are alike stay so when the second one is placed at the start. -/
theorem Likeness.Alike.unplaced {α : Type} {depth : Nat} {r r' : Render α} {offset : Nat}
    (h : Likeness.upToPlaces.Alike depth r r') :
    Likeness.upToPlaces.Alike depth (Render.located offset r) (Render.located 0 r') :=
  h.located trivial

namespace Markup
open Render Likeness

/-- Texts side by side write what one text writes. -/
theorem runFrom_join (node : Node) (nodes : List Node) (host : Host) (s : RenderState) :
    (runNodes (join node nodes)).runFrom host s = (runNodes (node :: nodes)).runFrom host s := by
  cases node with
  | output | tag => rfl
  | text t =>
    cases nodes with
    | nil => rfl
    | cons node nodes =>
      cases node with
      | output | tag => rfl
      | text u =>
        change (runNodes nodes).runFrom host ⟨s.scope, s.out ++ (t ++ u)⟩ =
          (runNodes nodes).runFrom host ⟨s.scope, s.out ++ t ++ u⟩
        rw [String.append_assoc]

theorem alike_andThen {L : Likeness} {depth : Nat} {first first' rest rest' : Render Signal}
    (hf : L.Alike depth first first') (hr : L.Alike depth rest rest') :
    L.Alike depth (andThen first rest) (andThen first' rest') := by
  refine hf.bind fun signal => ?_
  cases signal with
  | normal => exact hr
  | breakLoop | nextTurn => exact alike_pure _

mutual

theorem alike_bare {depth : Nat} : ∀ {node : Node}, node.BuiltIn →
    upToPlaces.Alike depth node.run node.bare.run
  | .text s, _ => (alike_write s).bind fun _ => alike_pure _
  | .output e offset, _ =>
    (alike_value e).unplaced.bind fun v =>
      (alike_writeValue v).bind fun _ => alike_pure _
  | .tag h children clauses, ⟨hf, hchildren, hclauses⟩ => by
    have hview : Tag.View.Alike upToPlaces
        ⟨h.name, h.args, runNodes children, clauseViews clauses⟩
        ⟨h.name, h.args, runNodes (bareAll children), clauseViews (bareClauses clauses)⟩ :=
      ⟨rfl, rfl, fun _ => alike_bareAll hchildren, alike_bareClauses hclauses⟩
    exact (Tag.alike_run hf.ne_host hview).unplaced

/-- A tree of built-in tags is rendered like the bare tree. -/
theorem alike_bareAll {depth : Nat} : ∀ {nodes : List Node}, AllBuiltIn nodes →
    upToPlaces.Alike depth (runNodes nodes) (runNodes (bareAll nodes))
  | [], _ => alike_pure _
  | node :: nodes, ⟨hn, hs⟩ => by
    intro host s s' hscope hout
    rw [bareAll, runFrom_join]
    exact alike_andThen (alike_bare hn) (alike_bareAll hs) host s s' hscope hout

theorem alike_bareClauses : ∀ {clauses : List (Head × List Node)}, ClausesBuiltIn clauses →
    List.Forall₂ (Tag.ClauseView.Alike upToPlaces) (clauseViews clauses)
      (clauseViews (bareClauses clauses))
  | [], _ => .nil
  | (h, nodes) :: clauses, ⟨hb, hn, hs⟩ => by
    refine .cons ⟨rfl, trivial, fun depth => ?_⟩ (alike_bareClauses hs)
    have hview : Tag.View.Alike upToPlaces ⟨h.name, h.args, runNodes nodes, []⟩
        ⟨h.name, h.args, runNodes (bareAll nodes), []⟩ :=
      ⟨rfl, rfl, fun _ => alike_bareAll hn, .nil⟩
    have hhost : ∀ f, h.descriptor.behavior ≠ .host f := by simp [hb]
    exact (Tag.alike_run hhost hview).unplaced

end

end Markup

namespace Template
open Markup

theorem renderNodes_bareAll {nodes : List Node} (hn : AllBuiltIn nodes) (host : Host) (mode : Mode)
    (globals : Frame) :
    (renderNodes host mode globals nodes).mapError Stop.bare =
      (renderNodes host mode globals (bareAll nodes)).mapError Stop.bare := by
  have halike : Likeness.upToPlaces.Alike 0 (runNodes nodes) (runNodes (bareAll nodes)) :=
    alike_bareAll hn
  have h := halike host ⟨.ofGlobals mode globals, ""⟩ _ rfl rfl
  unfold renderNodes
  generalize (runNodes nodes).runFrom host ⟨.ofGlobals mode globals, ""⟩ = x,
    (runNodes (bareAll nodes)).runFrom host ⟨.ofGlobals mode globals, ""⟩ = x' at h
  obtain ⟨x, t⟩ := x
  obtain ⟨x', t'⟩ := x'
  obtain ⟨hres, -, hout⟩ := h
  cases hres with
  | ok signal => exact congrArg (fun text => Except.ok (text, signal)) hout
  | stop h => exact congrArg Except.error h

/-- Trees of built-in tags that agree when they are bare are rendered alike, with every host and all
variables. -/
theorem renderNodes_bare {xs ys : List Node} (hx : AllBuiltIn xs) (hy : AllBuiltIn ys)
    (h : bareAll xs = bareAll ys) (host : Host) (mode : Mode) (globals : Frame) :
    (renderNodes host mode globals xs).mapError Stop.bare =
      (renderNodes host mode globals ys).mapError Stop.bare := by
  rw [renderNodes_bareAll hx, renderNodes_bareAll hy, h]

end Template

end TemplateEngine
