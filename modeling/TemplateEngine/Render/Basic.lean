import TemplateEngine.Expr.Eval
import TemplateEngine.Value.Text

/-!
# Rendering

Rendering reads the host, changes a scope and an output, and may stop early: with an error, or
because a loop ran too often.  The scope and the output are kept when it stops.  What a loop is
told by its body is a signal, not a stop.
-/

namespace TemplateEngine

/-- What a node tells the loop around it. -/
inductive Signal where
  | normal
  /-- The loop ends. -/
  | breakLoop
  /-- The loop goes on with its next turn. -/
  | nextTurn
deriving DecidableEq, Repr

/-- The scope of a rendering and what it has written. -/
structure RenderState where
  scope : Scope
  out : String

/-- Why a rendering ends early. -/
inductive Stop where
  | error (e : Error)
  /-- A loop ran more often than the host allows. -/
  | exhausted
deriving DecidableEq

/-- A rendering. -/
abbrev Render := ReaderT Host (ExceptT Stop (StateM RenderState))

namespace Render

/-- What a rendering does from a state, on a host. -/
def runFrom {α : Type} (r : Render α) (host : Host) (s : RenderState) :
    Except Stop α × RenderState :=
  ((r.run host).run).run s

/-- The rendering that does this. -/
def ofRun {α : Type} (f : Host → RenderState → Except Stop α × RenderState) : Render α :=
  fun host => ExceptT.mk fun s => f host s

/-- Failure with a fault that has no place yet. -/
def fault {α : Type} (f : RenderFault) : Render α := throw (.error (.failed f))

/-- The result of a computation without effects. -/
def lift {α : Type} : Except Error α → Render α
  | .ok a => return a
  | .error e => throw (.error e)

/-- The dialect. -/
def mode : Render Mode := return (← get).scope.mode

/-- Writes a text. -/
def write (text : String) : Render Unit := modify fun s => { s with out := s.out ++ text }

/-- Changes the scope. -/
def modifyScope (f : Scope → Scope) : Render Unit := modify fun s => { s with scope := f s.scope }

/-- An error without a place gets this one. -/
def located {α : Type} (offset : Nat) (r : Render α) : Render α :=
  ofRun fun host s =>
    match r.runFrom host s with
    | (.error (.error e), s') => (.error (.error (e.placedAt offset)), s')
    | result => result

/-- A rendering in a new innermost frame, which is dropped however the rendering ends. -/
def framed {α : Type} (r : Render α) : Render α :=
  ofRun fun host s =>
    let (result, s') := r.runFrom host { s with scope := s.scope.push }
    (result, { s' with scope := s'.scope.pop })

/-- A rendering that writes to a text of its own. -/
def aside {α : Type} (r : Render α) : Render (α × String) :=
  ofRun fun host s =>
    let (result, s') := r.runFrom host { s with out := "" }
    (result.map fun a => (a, s'.out), { s' with out := s.out })

/-- The value of an expression that does not outlive the node; `part` tells apart values that are
compared with one another. -/
def valueAt (part : List Nat) (e : Expr) : Render Value := do
  let host ← read
  let scope := (← get).scope
  lift (e.eval host scope (part ++ [scope.clock]))

/-- The value of an expression that does not outlive the node. -/
def value (e : Expr) : Render Value := valueAt [] e

/-- The value of an expression that is bound or handed on. -/
def lastingValue (e : Expr) : Render Value := do
  let v ← value e
  modifyScope Scope.tick
  return v

/-- The truth of a condition. -/
def holds (e : Expr) : Render Bool := return (← value e).truthy (← mode)

/-- Writes a value as the dialect shows it. -/
def writeValue (v : Value) : Render Unit := do write (v.text (← mode))

end Render

end TemplateEngine
