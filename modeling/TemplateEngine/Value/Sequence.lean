import TemplateEngine.Error
import TemplateEngine.Text.Search
import TemplateEngine.Value.Equality

/-!
# Items, members and slices

Iteration, membership, indexing, slicing and identity.  Indices count characters of strings and
items of lists and tuples; a negative index counts from the end.
-/

namespace TemplateEngine.Value

/-- The characters of a text as strings. -/
def characters (s : String) : List Value := s.toList.map fun c => .str c.toString

/-- The items that iteration goes through: of a dict its keys, of a string its characters. -/
def iterate : Value → Except Error (List Value)
  | .list xs | .tuple xs | .set xs => .ok xs
  | .dict es => .ok (es.map Prod.fst)
  | .str s => .ok (characters s)
  | v => fail (.notIterable v.typeName)

/-- The attribute of an object. -/
def attribute? (attrs : List (String × Value)) (name : String) : Option Value := attrs.lookup name

/-- `item in container` -/
def contains (container item : Value) : Except Error Bool :=
  match container with
  | .str s =>
    match item with
    | .str needle => .ok (Text.occursIn needle.toList s.toList)
    | other => fail (.membershipInString other.typeName)
  | .list xs | .tuple xs | .set xs => .ok (item.memberOf xs)
  | .dict es => .ok (item.lookup? es).isSome
  | .object _ _ attrs items _ =>
    .ok ((item.lookup? items).isSome ||
      match item with
      | .str name => (attribute? attrs name).isSome
      | _ => false)
  | other => fail (.notAContainer other.typeName)

/-- `a is b`: plain values by type and value, and what has an identity by identity.  A container
is built anew by every evaluation and is identical to nothing. -/
def identical : Value → Value → Bool
  | .nil, .nil => true
  | .bool a, .bool b => a == b
  | .int a, .int b => a == b
  | .str a, .str b => a == b
  | .object i .., .object j .. => i == j
  | .builtin f, .builtin g => f == g
  | .method s .., .method t .. => s == t
  | .host i _, .host j _ => i == j
  | _, _ => false

/-! ### Indices -/

/-- The item at an index; a negative one counts from the end. -/
def itemAt? {α : Type} (items : List α) (index : Int64) : Option α :=
  let i := if index < 0 then index.toInt + items.length else index.toInt
  if 0 ≤ i then items[i.toNat]? else none

/-- The member of a mapping under a key, or of a sequence at an index. -/
def item? (base key : Value) : Option Value :=
  match base with
  | .dict es => key.lookup? es
  | .list xs | .tuple xs => key.asInt?.bind (itemAt? xs)
  | .str s => key.asInt?.bind (itemAt? (characters s))
  | .object _ _ _ items _ => key.lookup? items
  | _ => none

/-! ### Slices -/

/-- A bound of a slice of `length` items, from the end if negative, and brought into the range
from `low` to `high`. -/
def clamp (length low high bound : Int) : Int :=
  if bound < 0 then max (bound + length) low else min bound high

/-- The indices of a slice of `length` items. -/
def sliceIndices (length : Nat) (start stop : Option Int64) (step : Int) : List Int :=
  let n : Int := length
  if 0 < step then
    Number.progression (start.elim 0 fun i => clamp n 0 n i.toInt)
      (stop.elim n fun i => clamp n 0 n i.toInt) step
  else
    Number.progression (start.elim (n - 1) fun i => clamp n (-1) (n - 1) i.toInt)
      (stop.elim (-1) fun i => clamp n (-1) (n - 1) i.toInt) step

/-- The items at the indices of a slice; the step is one when absent. -/
def sliceItems {α : Type} (items : List α) (start stop step : Option Int64) :
    Except Error (List α) :=
  let step := (step.getD 1).toInt
  if step = 0 then fail .zeroSliceStep
  else .ok ((sliceIndices items.length start stop step).filterMap fun i => items[i.toNat]?)

/-- `base[start:stop:step]` for strings, lists and tuples. -/
def slice (base : Value) (start stop step : Option Int64) : Except Error Value :=
  match base with
  | .str s => (sliceItems s.toList start stop step).map fun cs => .str (String.ofList cs)
  | .list xs => (sliceItems xs start stop step).map .list
  | .tuple xs => (sliceItems xs start stop step).map .tuple
  | other => fail (.notSubscriptable other.typeName)

end TemplateEngine.Value
