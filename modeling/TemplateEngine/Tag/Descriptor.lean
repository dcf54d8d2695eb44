import TemplateEngine.Tag.Behavior
import TemplateEngine.Text.Quoted

/-!
# Descriptors of tags

What the reader of templates and the renderer have to know of a tag.
-/

namespace TemplateEngine.Tag

/-- The place of a tag in the block structure. -/
inductive Role where
  /-- Begins a block that `end` and its name close. -/
  | opener
  /-- Divides an open block. -/
  | clause
  /-- Stands alone. -/
  | standalone
deriving DecidableEq, Repr

/-- The name of a role. -/
def Role.name : Role → String
  | .opener => "Opener"
  | .clause => "Clause"
  | .standalone => "Standalone"

/-- A tag: its names and dialect, the form of its head, where it may stand and what it does. -/
structure Descriptor where
  names : List String
  mode : Mode
  /-- The tag has no body. -/
  void : Bool
  start : Start
  /-- The blocks that the tag divides; it is a clause if there are any. -/
  parents : List String
  /-- No other clause of the block may follow. -/
  terminal : Bool
  /-- The blocks one of which has to enclose the tag, if there are any. -/
  inside : List String
  /-- The tag is built in and cannot be removed. -/
  isProtected : Bool
  behavior : Behavior

namespace Descriptor

/-- A tag with a behavior and nothing else. -/
def ofBehavior (behavior : Behavior) : Descriptor where
  names := []
  mode := .standard
  void := false
  start := .none
  parents := []
  terminal := false
  inside := []
  isProtected := false
  behavior := behavior

/-- The role of a tag. -/
def role (d : Descriptor) : Role :=
  if !d.parents.isEmpty then .clause else if d.void then .standalone else .opener

/-- The name of a dialect in descriptions. -/
def modeName : Mode → String
  | .standard => "Standard"
  | .python => "Python"

/-- The descriptor as a text for people. -/
def describe (d : Descriptor) : String :=
  "TagDescriptor \x7b names: [" ++ ", ".intercalate (d.names.map Text.quoted) ++ "], mode: " ++
    modeName d.mode ++ ", role: " ++ d.role.name ++ ", start: " ++ d.start.name ++
    ", protected: " ++ (if d.isProtected then "true" else "false") ++ ", .. \x7d"

end Descriptor

end TemplateEngine.Tag
