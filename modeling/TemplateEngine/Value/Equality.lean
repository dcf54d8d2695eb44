import TemplateEngine.Value.Basic

/-!
# Equality of values

Numbers are equal when their exact values are, whatever their types.  Sequences are compared item
by item, sets and dicts without regard to order, and everything with an identity by identity.
-/

namespace TemplateEngine

namespace Numeric

/-- The integer equals the floating point number exactly. -/
def intEqualsFloat (i : Int64) (x : Binary64) : Bool := x.toWord? == some i

/-- Two numbers are equal. -/
def equals : Numeric → Numeric → Bool
  | .int a, .int b => a == b
  | .float x, .float y => x.equals y
  | .int i, .float x => intEqualsFloat i x
  | .float x, .int i => intEqualsFloat i x

end Numeric

namespace Value

/-- Equality of values that are not both containers of one type. -/
def equalsNumber (a b : Value) : Bool :=
  match a.number?, b.number? with
  | some x, some y => x.equals y
  | _, _ => false

mutual

/-- Two values are equal. -/
def equals : Value → Value → Bool
  | .nil, .nil => true
  | .str a, .str b => a == b
  | .list xs, .list ys => equalsAll xs ys
  | .tuple xs, .tuple ys => equalsAll xs ys
  | .set xs, .set ys => xs.length == ys.length && containedIn xs ys
  | .dict es, .dict fs => es.length == fs.length && entriesIn es fs
  | .object i .., .object j .. => i == j
  | .builtin f, .builtin g => f == g
  | .method s .., .method t .. => s == t
  | .host i _, .host j _ => i == j
  | a, b => equalsNumber a b

/-- Two sequences are equal item by item. -/
def equalsAll : List Value → List Value → Bool
  | [], [] => true
  | x :: xs, y :: ys => equals x y && equalsAll xs ys
  | _, _ => false

/-- Every item of the first sequence equals one of the second. -/
def containedIn : List Value → List Value → Bool
  | [], _ => true
  | x :: xs, ys => ys.any (fun y => equals x y) && containedIn xs ys

/-- Every entry of the first dict is in the second, with an equal value. -/
def entriesIn : List (Value × Value) → List (Value × Value) → Bool
  | [], _ => true
  | (k, v) :: es, fs =>
    (match fs.find? fun f => equals k f.1 with
      | some f => equals v f.2
      | none => false) && entriesIn es fs

end

/-- An item equal to `x` is among the items. -/
def memberOf (x : Value) (items : List Value) : Bool := items.any fun y => x.equals y

/-- The value of the entry whose key equals `key`. -/
def lookup? (key : Value) (entries : List (Value × Value)) : Option Value :=
  (entries.find? fun e => key.equals e.1).map Prod.snd

/-- The items with `x` at the end, unless an equal item is there. -/
def insertItem (items : List Value) (x : Value) : List Value :=
  if x.memberOf items then items else items ++ [x]

/-- The items in order, each the first of its equals. -/
def distinct (items : List Value) : List Value := items.foldl insertItem []

/-- The entries with `key` mapped to `value`: an equal key stays where and as it is. -/
def insertEntry (key value : Value) : List (Value × Value) → List (Value × Value)
  | [] => [(key, value)]
  | (k, v) :: es => if key.equals k then (k, value) :: es else (k, v) :: insertEntry key value es

/-- The entries in order of insertion, each key with the last of its values. -/
def insertAll (entries : List (Value × Value)) (more : List (Value × Value)) :
    List (Value × Value) :=
  more.foldl (fun es e => insertEntry e.1 e.2 es) entries

end Value

end TemplateEngine
