import TemplateEngine.Function.Filter

/-!
# Hosts

What the program around the templates supplies to a rendering.
-/

namespace TemplateEngine

/-- The filters and function bodies that a rendering uses, and how often a loop may run. -/
structure Host where
  filters : FilterTable
  /-- The value of a call of a host function, by its identity and name. -/
  call : Nat → String → List Value → Except Error Value
  /-- A `while` loop is given up after this many turns. -/
  turns : Nat

namespace Host

/-- The value of a call of a value. -/
def callValue (host : Host) (callee : Value) (args : List Value) : Except Error Value :=
  match callee with
  | .builtin f => f.apply args
  | .method _ receiver m => m.apply receiver args
  | .host identity name => host.call identity name args
  | v => fail (.notCallable v.typeName)

end Host

end TemplateEngine
