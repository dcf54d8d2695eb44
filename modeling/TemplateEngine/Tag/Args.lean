import TemplateEngine.Expr.Basic

/-!
# Heads of tags

What stands behind the name of a tag, by the form that the tag asks for.
-/

namespace TemplateEngine.Tag

/-- The form of a head. -/
inductive Start where
  | none
  | expr
  | varName
  | exprList
  | assign
  | forLoop
  /-- The text as it is. -/
  | raw
deriving DecidableEq, Repr

/-- The name of a form. -/
def Start.name : Start → String
  | .none => "None"
  | .expr => "Expr"
  | .varName => "VarName"
  | .exprList => "ExprList"
  | .assign => "Assign"
  | .forLoop => "For"
  | .raw => "Raw"

/-- The head of a loop over items: `targets in iterable`, with the parts of the standard dialect
that choose among the items. -/
structure LoopHead where
  targets : List String
  iterable : Expr
  limit : Option Expr
  offset : Option Expr
  reversed : Bool

/-- A head. -/
inductive Args where
  | none
  | expr (e : Expr)
  | varName (name : String)
  | exprList (es : List Expr)
  | assign (name : String) (value : Expr)
  | forLoop (head : LoopHead)
  | raw (text : String)

end TemplateEngine.Tag
