import TemplateEngine.Mode
import TemplateEngine.Number.Binary64

/-!
# Values

What expressions evaluate to and variables hold.  Sets and dicts keep the order of insertion.
Functions are data: the built-in functions by name, a method with the receiver it is bound to, and
a host function by identity.  Objects, host functions and bound methods have an identity, and are
equal to themselves only.
-/

namespace TemplateEngine

/-- The functions that python expressions find below every frame. -/
inductive Builtin where
  | range | len | int | float | str | bool | list | tuple | set | dict
  | abs | min | max | sum | sorted | reversed | enumerate | zip | round | repr
deriving DecidableEq, Repr

/-- The methods of strings, dicts, lists and tuples. -/
inductive Method where
  | items | keys | values | get
  | upper | lower | strip | split | startswith | endswith | replace | join
  | index | count
deriving DecidableEq, Repr

/-- The place of an evaluation: when it happened and where in the expression.  A method is bound
anew at every place, so the place is its identity. -/
abbrev Site := List Nat

/-- A value of the template languages. -/
inductive Value where
  | nil
  | bool (b : Bool)
  | int (i : Int64)
  | float (x : Binary64)
  | str (s : String)
  | list (items : List Value)
  | tuple (items : List Value)
  | set (items : List Value)
  | dict (entries : List (Value × Value))
  /-- An object of the host: attributes by name, items by key, and the text it is printed as. -/
  | object (identity : Nat) (type : String) (attrs : List (String × Value))
      (items : List (Value × Value)) (text : String)
  | builtin (f : Builtin)
  | method (site : Site) (receiver : Value) (m : Method)
  | host (identity : Nat) (name : String)
deriving Inhabited

/-- A number as arithmetic sees it. -/
inductive Numeric where
  | int (i : Int64)
  | float (x : Binary64)

namespace Builtin

/-- All built-in functions. -/
def all : List Builtin :=
  [.range, .len, .int, .float, .str, .bool, .list, .tuple, .set, .dict, .abs, .min, .max, .sum,
    .sorted, .reversed, .enumerate, .zip, .round, .repr]

/-- The name of a built-in function. -/
def name : Builtin → String
  | .range => "range" | .len => "len" | .int => "int" | .float => "float" | .str => "str"
  | .bool => "bool" | .list => "list" | .tuple => "tuple" | .set => "set" | .dict => "dict"
  | .abs => "abs" | .min => "min" | .max => "max" | .sum => "sum" | .sorted => "sorted"
  | .reversed => "reversed" | .enumerate => "enumerate" | .zip => "zip" | .round => "round"
  | .repr => "repr"

/-- The built-in function of this name. -/
def ofName? (name : String) : Option Builtin := all.find? fun f => f.name == name

end Builtin

namespace Method

/-- The name of a method. -/
def name : Method → String
  | .items => "items" | .keys => "keys" | .values => "values" | .get => "get"
  | .upper => "upper" | .lower => "lower" | .strip => "strip" | .split => "split"
  | .startswith => "startswith" | .endswith => "endswith" | .replace => "replace"
  | .join => "join" | .index => "index" | .count => "count"

/-- The methods of dicts. -/
def ofDict : List Method := [.items, .keys, .values, .get]

/-- The methods of strings. -/
def ofStr : List Method :=
  [.upper, .lower, .strip, .split, .startswith, .endswith, .replace, .join]

/-- The methods of lists and tuples. -/
def ofSequence : List Method := [.index, .count]

end Method

namespace Numeric

/-- The number in floating point. -/
def toFloat : Numeric → Binary64
  | .int i => .ofInt i.toInt
  | .float x => x

end Numeric

namespace Value

/-- The name of a value's type. -/
def typeName : Value → String
  | .nil => "NoneType"
  | .bool _ => "bool"
  | .int _ => "int"
  | .float _ => "float"
  | .str _ => "str"
  | .list _ => "list"
  | .tuple _ => "tuple"
  | .set _ => "set"
  | .dict _ => "dict"
  | .object _ type .. => type
  | .builtin _ | .method .. | .host .. => "function"

/-- The value is absent. -/
def isNil : Value → Bool
  | .nil => true
  | _ => false

/-- The text of a string. -/
def asStr? : Value → Option String
  | .str s => some s
  | _ => none

/-- Integers, and truth values as zero and one. -/
def asInt? : Value → Option Int64
  | .int i => some i
  | .bool b => some (Number.ofBool b)
  | _ => none

/-- Numbers, and truth values as zero and one. -/
def number? : Value → Option Numeric
  | .bool b => some (.int (Number.ofBool b))
  | .int i => some (.int i)
  | .float x => some (.float x)
  | _ => none

/-- Numbers in floating point. -/
def asFloat? (v : Value) : Option Binary64 := v.number?.map Numeric.toFloat

/-- How many characters, items or entries a value has. -/
def length? : Value → Option Nat
  | .str s => some s.toList.length
  | .list xs | .tuple xs | .set xs => some xs.length
  | .dict es => some es.length
  | _ => none

/-- Truth in python expressions: zero, the empty and the absent are false. -/
def isTruthy : Value → Bool
  | .nil => false
  | .bool b => b
  | .int i => i != 0
  | .float x => !x.isZero
  | .str s => !s.isEmpty
  | .list xs | .tuple xs | .set xs => !xs.isEmpty
  | .dict es => !es.isEmpty
  | .object .. | .builtin _ | .method .. | .host .. => true

/-- Truth in standard expressions: only false and the absent are false. -/
def isPresent : Value → Bool
  | .nil | .bool false => false
  | _ => true

/-- Truth in a dialect. -/
def truthy (mode : Mode) (v : Value) : Bool :=
  match mode with
  | .standard => v.isPresent
  | .python => v.isTruthy

/-- Lists, sets and dicts cannot be elements of a set or keys of a dict. -/
def isHashable : Value → Bool
  | .list _ | .set _ | .dict _ => false
  | _ => true

end Value

end TemplateEngine
