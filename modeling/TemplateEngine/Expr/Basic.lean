import TemplateEngine.Value.Basic

/-!
# Expressions

The syntax tree that both dialects share.  Each dialect reads only a part of it.
-/

namespace TemplateEngine

/-- Operators between two operands. -/
inductive BinaryOp where
  | or | and
  | isIn | notIn | is | isNot
  | eq | ne | lt | le | gt | ge
  | contains
  | bitOr | bitXor | bitAnd | shl | shr
  | add | sub | mul | div | floorDiv | mod | pow
deriving DecidableEq, Repr

/-- Operators in front of one operand. -/
inductive UnaryOp where
  | not | neg | pos | invert
deriving DecidableEq, Repr

/-- An expression. -/
inductive Expr where
  | literal (v : Value)
  | list (items : List Expr)
  | tuple (items : List Expr)
  | set (items : List Expr)
  | dict (entries : List (Expr × Expr))
  /-- The integers from the first to the last, both included. -/
  | range (first last : Expr)
  /-- What is equal to everything without items. -/
  | empty
  | var (name : String)
  | attr (base : Expr) (name : String)
  | index (base key : Expr)
  | slice (base : Expr) (start stop step : Option Expr)
  | call (callee : Expr) (args : List Expr)
  | unary (op : UnaryOp) (operand : Expr)
  | binary (op : BinaryOp) (left right : Expr)
  /-- `yes if cond else no` -/
  | ternary (cond yes no : Expr)
  | filter (value : Expr) (name : String) (args : List Expr)
deriving Inhabited

end TemplateEngine
