import TemplateEngine.Error
import TemplateEngine.Value.Equality

/-!
# Order of values

`order?` is the order of `<` and its kin: numbers, strings, and sequences by the first items that
differ.  `totalOrder` is the order of sorting; it agrees on the values that sorting admits and
places every other value somewhere, so that it never fails.
-/

namespace TemplateEngine

namespace Numeric

/-- The order of two numbers: of integers exactly, else in floating point. -/
def order? : Numeric → Numeric → Option Ordering
  | .int a, .int b => some (compare a b)
  | x, y => x.toFloat.order? y.toFloat

end Numeric

namespace Value

/-- The order of two strings, character by character. -/
def stringOrder (s t : String) : Ordering :=
  compareOfLessAndEq s t

/-- Failure for operands without an order. -/
def notOrdered {α : Type} (op : String) (a b : Value) : Except Error α :=
  fail (.notOrdered op a.typeName b.typeName)

mutual

/-- The order of two values, for the operator `op`; a NaN is ordered to nothing. -/
def order? (op : String) : Value → Value → Except Error (Option Ordering)
  | .str s, .str t => .ok (some (stringOrder s t))
  | .list xs, .list ys => orderAll? op xs ys
  | .tuple xs, .tuple ys => orderAll? op xs ys
  | a, b =>
    match a.number?, b.number? with
    | some x, some y => .ok (x.order? y)
    | _, _ => notOrdered op a b

/-- The order of the first items that are not equal, else of the lengths. -/
def orderAll? (op : String) : List Value → List Value → Except Error (Option Ordering)
  | [], ys => .ok (some (compare 0 ys.length))
  | x :: xs, [] => .ok (some (compare (x :: xs).length 0))
  | x :: xs, y :: ys => if x.equals y then orderAll? op xs ys else order? op x y

end

/-! ### Sorting -/

/-- The class of a value for sorting; values of different classes are not sorted together. -/
def sortClass? : Value → Option Nat
  | .bool _ | .int _ | .float _ => some 0
  | .str _ => some 1
  | .list _ => some 2
  | .tuple _ => some 3
  | _ => none

/-- The order of values that are not both containers or strings of one class. -/
def classOrder (a b : Value) : Ordering :=
  match sortClass? a, sortClass? b with
  | some x, some y =>
    if x ≠ y then compare x y
    else
      match a, b with
      | .int i, .int j => compare i j
      | a, b =>
        compare (a.asFloat?.getD (.zero false)).totalKey (b.asFloat?.getD (.zero false)).totalKey
  | some _, none => .lt
  | none, some _ => .gt
  | none, none => stringOrder a.typeName b.typeName

mutual

/-- The order of sorting. -/
def totalOrder : Value → Value → Ordering
  | .str s, .str t => stringOrder s t
  | .list xs, .list ys => totalOrderAll xs ys
  | .tuple xs, .tuple ys => totalOrderAll xs ys
  | a, b => classOrder a b

/-- The order of the first items that differ, else of the lengths. -/
def totalOrderAll : List Value → List Value → Ordering
  | [], ys => compare 0 ys.length
  | x :: xs, [] => compare (x :: xs).length 0
  | x :: xs, y :: ys =>
    match totalOrder x y with
    | .eq => totalOrderAll xs ys
    | o => o

end

/-- All items are of the class of the first one, and that class has an order. -/
def checkComparable (items : List Value) : Except Error Unit :=
  match items with
  | [] => .ok ()
  | first :: _ =>
    items.forM fun item =>
      if item.sortClass?.isSome && item.sortClass? == first.sortClass? then .ok ()
      else notOrdered "<" first item

/-- A sorted list in descending order with `x` put before the first item that it is not less
than. -/
def insertDescending (x : Value) : List Value → List Value
  | [] => [x]
  | y :: ys => if totalOrder x y = .lt then y :: insertDescending x ys else x :: y :: ys

/-- The items in order; ties stay as they are.  Items among which `totalOrder` is not transitive
have no such order, and the row that they come in is not promised. -/
def sort (items : List Value) : Except Error (List Value) := do
  checkComparable items
  return (items.foldl (fun sorted x => insertDescending x sorted) []).reverse

end Value

end TemplateEngine
