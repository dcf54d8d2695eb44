import TemplateEngine.Config
import TemplateEngine.HostData.Datum
import TemplateEngine.Markup.Block
import TemplateEngine.Render.Node

/-!
# Templates

A template is read once and rendered any number of times, each time in a scope of its own.
-/

namespace TemplateEngine

/-- A template that has been read. -/
structure Template where
  source : String
  config : Config
  root : List Markup.Node

namespace Template

/-- Reads a template with the tags of a registry. -/
def read (registry : Tag.Registry) (config : Config) (source : String) :
    Except Error Template := do
  return ⟨source, config, ← Markup.parse registry config.mode source⟩

/-- What nodes write and the signal that they end with, rendered with these variables. -/
def renderNodes (host : Host) (mode : Mode) (globals : Frame) (nodes : List Markup.Node) :
    Except Stop (String × Signal) :=
  let (result, s) := (Markup.runNodes nodes).runFrom host ⟨.ofGlobals mode globals, ""⟩
  result.map fun signal => (s.out, signal)

/-- The text of a template with these variables; a signal that reaches the top just ends it. -/
def render (host : Host) (t : Template) (globals : Frame) : Except Stop String :=
  (renderNodes host t.config.mode globals t.root).map Prod.fst

/-- The variable of an entry whose key is a name. -/
def binding (entry : Value × Value) : Except Error (String × Value) :=
  match entry.1 with
  | .str name => .ok (name, entry.2)
  | key => fail (.variableNotNamed key.repr)

/-- The variables that host data gives: the entries of a mapping, and none for nothing. -/
def globalsOf (data : Datum) : Except Error Frame := do
  match ← data.toValue with
  | .nil => return []
  | .dict es => es.mapM binding
  | v => fail (.variablesNotMapping v.typeName)

/-- The text of a template with variables from host data. -/
def renderData (host : Host) (t : Template) (data : Datum) : Except Stop String :=
  match globalsOf data with
  | .ok globals => t.render host globals
  | .error e => .error (.error e)

end Template

end TemplateEngine
