import TemplateEngine.Expr.Basic
import TemplateEngine.Expr.Token

/-!
# Grammars of expressions

What distinguishes the two dialects when expressions are read: the levels of operators from the
loosest to the tightest, the words with a meaning of their own, and which forms exist.
-/

namespace TemplateEngine

/-- Words with a meaning of their own. -/
inductive Keyword where
  | true | false | nil
  /-- What is equal to everything without items. -/
  | empty
deriving DecidableEq, Repr

/-- The expression of a keyword. -/
def Keyword.expr : Keyword → Expr
  | .true => .literal (.bool Bool.true)
  | .false => .literal (.bool Bool.false)
  | .nil => .literal .nil
  | .empty => .empty

/-- One level of precedence. -/
inductive Level where
  /-- Operators between operands of the next level, grouped from the left. -/
  | between (operators : List (List Word × BinaryOp))
  /-- `not` before an operand of the same level. -/
  | negation
  /-- Signs before an operand of the same level. -/
  | signs (operators : List (Symbol × UnaryOp))
  /-- `**` between a postfix expression and an operand of the level before. -/
  | power

/-- What the reader of expressions has to know of a dialect. -/
structure Grammar where
  levels : List Level
  keywords : List (String × Keyword)
  /-- Names that are neither variables nor targets of a binding. -/
  reserved : List String
  /-- `a if c else b` -/
  ternary : Bool
  /-- `f(x)` -/
  calls : Bool
  /-- `a[i:j]` -/
  slices : Bool
  /-- Tuples, sets and dicts. -/
  collections : Bool
  /-- `(a..b)` -/
  ranges : Bool
  /-- A minus before a number belongs to the number. -/
  negativeLiterals : Bool

namespace Grammar

/-- An operator spelled by one symbol. -/
def symbol (s : Symbol) (op : BinaryOp) : List Word × BinaryOp := ([.symbol s], op)

/-- An operator spelled by names. -/
def names (ws : List String) (op : BinaryOp) : List Word × BinaryOp := (ws.map .name, op)

/-- The grammar of python expressions. -/
def python : Grammar where
  levels := [
    .between [names ["or"] .or],
    .between [names ["and"] .and],
    .negation,
    .between [names ["not", "in"] .notIn, names ["in"] .isIn],
    .between [names ["is", "not"] .isNot, names ["is"] .is],
    .between [symbol .eqEq .eq, symbol .bangEq .ne, symbol .le .le, symbol .ge .ge,
      symbol .lt .lt, symbol .gt .gt],
    .between [symbol .barBar .bitOr],
    .between [symbol .caret .bitXor],
    .between [symbol .amp .bitAnd],
    .between [symbol .shl .shl, symbol .shr .shr],
    .between [symbol .plus .add, symbol .minus .sub],
    .between [symbol .star .mul, symbol .slashSlash .floorDiv, symbol .slash .div,
      symbol .percent .mod],
    .signs [(.plus, .pos), (.minus, .neg), (.tilde, .invert)],
    .power]
  keywords := [("True", .true), ("False", .false), ("None", .nil)]
  reserved := ["and", "or", "not", "in", "is", "if", "else"]
  ternary := true
  calls := true
  slices := true
  collections := true
  ranges := false
  negativeLiterals := false

/-- The grammar of standard expressions. -/
def standard : Grammar where
  levels := [
    .between [names ["or"] .or],
    .between [names ["and"] .and],
    .between [symbol .eqEq .eq, symbol .bangEq .ne, symbol .ltGt .ne, symbol .le .le,
      symbol .ge .ge, symbol .lt .lt, symbol .gt .gt, names ["contains"] .contains]]
  keywords :=
    [("true", .true), ("false", .false), ("nil", .nil), ("null", .nil), ("empty", .empty)]
  reserved := ["and", "or", "contains"]
  ternary := false
  calls := false
  slices := false
  collections := false
  ranges := true
  negativeLiterals := true

end Grammar

/-- The grammar of a dialect. -/
def Mode.grammar : Mode → Grammar
  | .standard => Grammar.standard
  | .python => Grammar.python

end TemplateEngine
