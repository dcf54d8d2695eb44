import TemplateEngine.Error
import TemplateEngine.Value.Basic

/-!
# Arguments

Checks on the number and the types of the arguments of a function.
-/

namespace TemplateEngine.Arguments

/-- A function takes from `least` to `most` arguments. -/
def between (function : String) (least most : Nat) (args : List Value) : Except Error Unit :=
  if args.length < least then fail (.tooFewArguments function least args.length)
  else if most < args.length then fail (.tooManyArguments function most args.length)
  else .ok ()

/-- A function takes `least` arguments or more. -/
def atLeast (function : String) (least : Nat) (args : List Value) : Except Error Unit :=
  if args.length < least then fail (.tooFewArguments function least args.length) else .ok ()

/-- An argument that has to be an integer. -/
def int (function : String) (v : Value) : Except Error Int64 :=
  match v.asInt? with
  | some i => .ok i
  | none => fail (.integerArgument function v.typeName)

/-- An argument that has to be a string. -/
def str (function : String) (v : Value) : Except Error String :=
  match v with
  | .str s => .ok s
  | v => fail (.stringArgument function v.typeName)

end TemplateEngine.Arguments
