import TemplateEngine.Error
import TemplateEngine.Text.Blank

/-!
# Configuration

The settings of a template.
-/

namespace TemplateEngine

/-- The settings of a template; `debug` asks for diagnostics and never changes what is written. -/
structure Config where
  mode : Mode
  debug : Bool
deriving DecidableEq

namespace Config

/-- Standard expressions without diagnostics. -/
def standard : Config := ⟨.standard, false⟩

end Config

/-- The dialect that a text names: `standard`, which is also called `liquid`, or `python`, in any
case and between blanks. -/
def Mode.read (text : String) : Except Error Mode :=
  let name := String.ofList ((Text.trim text.toList).map Char.toLower)
  if name = "standard" ∨ name = "liquid" then .ok .standard
  else if name = "python" then .ok .python
  else .error (.registry (.unknownMode name))

end TemplateEngine
