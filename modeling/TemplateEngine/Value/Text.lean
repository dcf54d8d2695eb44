import TemplateEngine.Number.Layout
import TemplateEngine.Text.Literal
import TemplateEngine.Value.Basic

/-!
# Values as text

`repr` writes a value as an expression, `display` is the same but for bare strings, and `plain` is
the output of the standard dialect: nothing for the absent and sequences without separators.
-/

namespace TemplateEngine.Value

mutual

/-- A value written as an expression. -/
def repr : Value → String
  | .nil => "None"
  | .bool true => "True"
  | .bool false => "False"
  | .int i => Number.writeInt i.toInt
  | .float x => Layout.value.write x
  | .str s => Text.literal s
  | .list xs => "[" ++ ", ".intercalate (reprs xs) ++ "]"
  | .tuple [x] => "(" ++ repr x ++ ",)"
  | .tuple xs => "(" ++ ", ".intercalate (reprs xs) ++ ")"
  | .set [] => "set()"
  | .set xs => "\x7b" ++ ", ".intercalate (reprs xs) ++ "\x7d"
  | .dict es => "\x7b" ++ ", ".intercalate (reprEntries es) ++ "\x7d"
  | .object _ _ _ _ text => text
  | .builtin f => "<function " ++ f.name ++ ">"
  | .method _ _ m => "<function " ++ m.name ++ ">"
  | .host _ name => "<function " ++ name ++ ">"

/-- The items written as expressions. -/
def reprs : List Value → List String
  | [] => []
  | x :: xs => repr x :: reprs xs

/-- The entries written as expressions. -/
def reprEntries : List (Value × Value) → List String
  | [] => []
  | (k, v) :: es => (repr k ++ ": " ++ repr v) :: reprEntries es

end

/-- A value as text in python templates. -/
def display : Value → String
  | .str s => s
  | v => v.repr

mutual

/-- A value as text in standard templates. -/
def plain : Value → String
  | .nil => ""
  | .bool true => "true"
  | .bool false => "false"
  | .list xs => plains xs
  | .tuple xs => plains xs
  | .set xs => plains xs
  | v => v.display

/-- The texts of the items, one after the other. -/
def plains : List Value → String
  | [] => ""
  | x :: xs => plain x ++ plains xs

end

/-- A value as an output of a template shows it. -/
def text (mode : Mode) (v : Value) : String :=
  match mode with
  | .python => v.display
  | .standard => v.plain

end TemplateEngine.Value
