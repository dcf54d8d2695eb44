import TemplateEngine.Function.Arguments
import TemplateEngine.Function.Conversion
import TemplateEngine.Value.Arithmetic
import TemplateEngine.Value.Order
import TemplateEngine.Value.Sequence

/-!
# Built-in functions

The functions that python expressions can call without binding them.  `Builtin.apply` checks the
number of arguments first, then evaluates.
-/

namespace TemplateEngine.Builtin

/-- `range(stop)`, `range(start, stop)` and `range(start, stop, step)`. -/
def rangeOf (args : List Value) : Except Error Value := do
  Arguments.between "range" 1 3 args
  let bounds ← args.mapM (Arguments.int "range")
  let (start, stop, step) : Int × Int × Int :=
    match bounds with
    | [stop] => (0, stop.toInt, 1)
    | start :: stop :: [] => (start.toInt, stop.toInt, 1)
    | start :: stop :: step :: _ => (start.toInt, stop.toInt, step.toInt)
    | [] => (0, 0, 1)
  if step = 0 then fail .zeroRangeStep
  else return .list ((Number.progression start stop step).map fun i => .int (Int64.ofInt i))

/-- `len(v)` -/
def lengthOf (v : Value) : Except Error Value :=
  match v.length? with
  | some n => .ok (.int (Number.ofCount n))
  | none => fail (.noLength v.typeName)

/-- The items of the only argument; none without one. -/
def itemsOf (args : List Value) : Except Error (List Value) :=
  match args.head? with
  | some v => v.iterate
  | none => .ok []

/-- A key and a value from an item with two items. -/
def pairOf (item : Value) : Except Error (Value × Value) := do
  match ← item.iterate with
  | [k, v] => return (k, v)
  | other => fail (.notAPair other.length)

/-- `dict()`, `dict(d)` and `dict(pairs)`. -/
def dictOf (args : List Value) : Except Error Value :=
  match args.head? with
  | none => .ok (.dict [])
  | some (.dict es) => .ok (.dict es)
  | some v => do
    let pairs ← (← v.iterate).mapM pairOf
    return .dict (Value.insertAll [] pairs)

/-- `abs(v)` -/
def absOf (v : Value) : Except Error Value :=
  match v with
  | .float x => .ok (.float x.abs)
  | v =>
    match v.asInt? with
    | some i => Value.ofExact i.toInt.natAbs
    | none => fail (.badAbsOperand v.typeName)

/-- The first item that no other one is beyond, in the direction `want`. -/
def extreme (function : String) (want : Ordering) (args : List Value) : Except Error Value := do
  Arguments.atLeast function 1 args
  let items ← match args with
    | [v] => v.iterate
    | args => .ok args
  Value.checkComparable items
  match items with
  | [] => fail (.emptySequence function)
  | first :: rest =>
    return rest.foldl (fun best x => if x.totalOrder best = want then x else best) first

/-- `sum(items)` and `sum(items, start)`. -/
def sumOf (items : Value) (start : Value) : Except Error Value := do
  (← items.iterate).foldlM Value.add start

/-- Items with their number, counted from `start`. -/
def number (start : Int64) (items : List Value) : Except Error (List Value) :=
  items.zipIdx.mapM fun (item, i) => do
    return .tuple [← Value.ofExact (start.toInt + i), item]

/-- The rows of some columns, as many as the shortest column has items. -/
def rows (columns : List (List Value)) : List Value :=
  let height := (columns.map List.length).min?.getD 0
  (List.range height).map fun i => .tuple (columns.map fun column => column.getD i .nil)

/-- `round(v)` and `round(v, places)`; integers stay as they are. -/
def roundOf (v : Value) (places : Option Int64) : Except Error Value :=
  match v, places with
  | .int i, _ => .ok (.int i)
  | v, none => do return .int (← Value.toInt (.float (← v.toFloat).roundEven))
  | v, some n => do
    let x ← v.toFloat
    if n.toInt < -2147483648 ∨ 2147483647 < n.toInt then fail .placesOutOfRange
    else
      let scale := Binary64.tenPow n.toInt
      return .float ((x.mul scale).roundEven.div scale)

/-- The decimal places to round to, where they are given. -/
def placesOf : Value → Except Error (Option Int64)
  | .nil => .ok none
  | v => (Arguments.int "round" v).map some

/-- The value of a call of a built-in function. -/
def apply (f : Builtin) (args : List Value) : Except Error Value := do
  let arity := Arguments.between f.name
  let arg (i : Nat) : Value := args.getD i .nil
  match f with
  | .range => rangeOf args
  | .len =>
    arity 1 1 args
    lengthOf (arg 0)
  | .int =>
    arity 0 1 args
    match args.head? with
    | some v => return .int (← v.toInt)
    | none => return .int 0
  | .float =>
    arity 0 1 args
    match args.head? with
    | some v => return .float (← v.toFloat)
    | none => return .float (.zero false)
  | .str =>
    arity 0 1 args
    return .str (args.head?.elim "" Value.display)
  | .bool =>
    arity 0 1 args
    return .bool (args.head?.elim false Value.isTruthy)
  | .list =>
    arity 0 1 args
    return .list (← itemsOf args)
  | .tuple =>
    arity 0 1 args
    return .tuple (← itemsOf args)
  | .set =>
    arity 0 1 args
    return .set (Value.distinct (← itemsOf args))
  | .dict =>
    arity 0 1 args
    dictOf args
  | .abs =>
    arity 1 1 args
    absOf (arg 0)
  | .min => extreme "min" .lt args
  | .max => extreme "max" .gt args
  | .sum =>
    arity 1 2 args
    sumOf (arg 0) (args.getD 1 (.int 0))
  | .sorted =>
    arity 1 1 args
    return .list (← Value.sort (← (arg 0).iterate))
  | .reversed =>
    arity 1 1 args
    return .list (← (arg 0).iterate).reverse
  | .enumerate =>
    arity 1 2 args
    let start ← match args[1]? with
      | some v => Arguments.int "enumerate" v
      | none => .ok 0
    return .list (← number start (← (arg 0).iterate))
  | .zip => return .list (rows (← args.mapM Value.iterate))
  | .round =>
    arity 1 2 args
    let places ← placesOf (arg 1)
    roundOf (arg 0) places
  | .repr =>
    arity 1 1 args
    return .str (arg 0).repr

end TemplateEngine.Builtin
