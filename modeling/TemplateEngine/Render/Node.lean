import TemplateEngine.Markup.Node

/-!
# Rendering a tree

Nodes are rendered in order until one gives a signal.  A tag is shown to its behavior as a view
whose body and clauses are renderings; errors get the offset of the node that they come from.
-/

namespace TemplateEngine.Markup

/-- One rendering, and the other unless the first gives a signal. -/
def andThen (first rest : Render Signal) : Render Signal := do
  match ← first with
  | .normal => rest
  | signal => return signal

/-- A tag or a clause with its parts as renderings. -/
def Head.run (h : Head) (body : Render Signal) (clauses : List Tag.ClauseView) : Render Signal :=
  Render.located h.offset (h.descriptor.behavior.run ⟨h.name, h.args, body, clauses⟩)

mutual

/-- Renders a node. -/
def Node.run : Node → Render Signal
  | .text s => do
    Render.write s
    return .normal
  | .output e offset => do
    Render.writeValue (← Render.located offset (Render.value e))
    return .normal
  | .tag head children clauses => head.run (runNodes children) (clauseViews clauses)

/-- Renders nodes in order, up to the first that gives a signal. -/
def runNodes : List Node → Render Signal
  | [] => return .normal
  | node :: nodes => andThen node.run (runNodes nodes)

/-- The clauses of a tag as views. -/
def clauseViews : List (Head × List Node) → List Tag.ClauseView
  | [] => []
  | (head, nodes) :: clauses =>
    ⟨head.args, head.offset, head.run (runNodes nodes) []⟩ :: clauseViews clauses

end

end TemplateEngine.Markup
