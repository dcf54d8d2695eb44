import TemplateEngine.Error
import TemplateEngine.Value.Basic

/-!
# Scopes

The variables of one rendering: a global frame, the frames of the blocks that are open, and below
them, in the python dialect, the built-in functions.  Counters live beside the frames.
-/

namespace TemplateEngine

/-- Variables by name. -/
abbrev Frame := List (String × Value)

namespace Frame

/-- The value of a name. -/
def get? (frame : Frame) (name : String) : Option Value := frame.lookup name

/-- The frame binds the name. -/
def binds (frame : Frame) (name : String) : Bool := (frame.get? name).isSome

/-- The frame with the name bound to a value. -/
def insert (frame : Frame) (name : String) (value : Value) : Frame :=
  (name, value) :: frame.filter fun entry => entry.1 != name

end Frame

/-- The variables and counters of one rendering. -/
structure Scope where
  mode : Mode
  globals : Frame
  /-- The frames of the open blocks, the innermost first. -/
  locals : List Frame
  counters : List (String × Int64)
  /-- The number of evaluations so far whose values can outlive them. -/
  clock : Nat

namespace Scope

/-- The scope at the start of a rendering. -/
def ofGlobals (mode : Mode) (globals : Frame) : Scope := ⟨mode, globals, [], [], 0⟩

/-- The number of frames. -/
def depth (s : Scope) : Nat := s.locals.length + 1

/-- The frames, the innermost first. -/
def frames (s : Scope) : List Frame := s.locals ++ [s.globals]

/-- The built-in function of a name, in the python dialect. -/
def builtin? (mode : Mode) (name : String) : Option Value :=
  match mode with
  | .standard => none
  | .python => (Builtin.ofName? name).map .builtin

/-- The value of a name: in the innermost frame that binds it, else the built-in function. -/
def get? (s : Scope) (name : String) : Option Value :=
  match s.frames.findSome? fun frame => frame.get? name with
  | some v => some v
  | none => builtin? s.mode name

/-- The value of a name that has to be bound. -/
def lookup (s : Scope) (name : String) : Except Error Value :=
  match s.get? name with
  | some v => .ok v
  | none => fail (.notDefined name)

/-- The scope with a new innermost frame. -/
def push (s : Scope) : Scope := { s with locals := [] :: s.locals }

/-- The scope without its innermost frame; the global frame stays. -/
def pop (s : Scope) : Scope := { s with locals := s.locals.tail }

/-- The frames with a name bound in the first of them that binds it, if one does. -/
def rebind? (name : String) (value : Value) : List Frame → Option (List Frame)
  | [] => none
  | frame :: more =>
    if frame.binds name then some (frame.insert name value :: more)
    else (rebind? name value more).map (frame :: ·)

/-- Binds a name where it is bound already, else in the global frame. -/
def assign (s : Scope) (name : String) (value : Value) : Scope :=
  match rebind? name value s.locals with
  | some locals => { s with locals }
  | none => { s with globals := s.globals.insert name value }

/-- Binds a name in the innermost frame. -/
def setLocal (s : Scope) (name : String) (value : Value) : Scope :=
  match s.locals with
  | [] => { s with globals := s.globals.insert name value }
  | frame :: more => { s with locals := frame.insert name value :: more }

/-- The value of a counter; it starts at zero. -/
def counter (s : Scope) (name : String) : Int64 := (s.counters.lookup name).getD 0

/-- Adds to a counter. -/
def bump (s : Scope) (name : String) (delta : Int64) : Scope :=
  { s with
    counters := (name, s.counter name + delta) :: s.counters.filter fun entry => entry.1 != name }

/-- The scope after an evaluation whose value can outlive it. -/
def tick (s : Scope) : Scope := { s with clock := s.clock + 1 }

end Scope

end TemplateEngine
