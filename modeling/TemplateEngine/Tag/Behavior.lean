import TemplateEngine.Render.Basic
import TemplateEngine.Tag.Args

/-!
# What tags do

A behavior is one of the built-in ones or is supplied by the host.  It sees its tag as a view: the
name and the head, and the body and the clauses as renderings.  So a behavior is given the parts
of its tag without the tree, and can be described on its own.
-/

namespace TemplateEngine.Tag

/-- A clause as the behavior of its block sees it. -/
structure ClauseView where
  args : Args
  offset : Nat
  /-- Renders the clause by its own behavior. -/
  run : Render Signal

/-- A tag as its behavior sees it. -/
structure View where
  name : String
  args : Args
  /-- Renders the body in the frame that is open. -/
  body : Render Signal
  clauses : List ClauseView

/-- What a tag does. -/
inductive Behavior where
  /-- `if`, and negated `unless`. -/
  | condition (negated : Bool)
  /-- `elsif`, `else` and `when`, once their block has chosen them. -/
  | clause
  /-- `case` -/
  | choice
  /-- `for` -/
  | forLoop
  /-- `while` -/
  | whileLoop
  /-- `break` and `continue` -/
  | control (signal : Signal)
  /-- `assign` -/
  | assign
  /-- `capture` -/
  | capture
  /-- `echo` -/
  | echo
  /-- `increment` and `decrement` -/
  | counter (step : Int64)
  /-- What the host does. -/
  | host (run : View → Render Signal)

namespace View

/-- The expression in the head. -/
def expr (v : View) : Render Expr :=
  match v.args with
  | .expr e => return e
  | _ => Render.fault (.needsExpression v.name)

/-- The name in the head. -/
def varName (v : View) : Render String :=
  match v.args with
  | .varName s => return s
  | _ => Render.fault (.needsName v.name)

/-- The body in a frame of its own. -/
def block (v : View) : Render Signal := Render.framed v.body

end View

/-! ### Choices -/

/-- The first clause that matches, rendered; nothing if none does. -/
def runFirst (clauses : List ClauseView) (select : ClauseView → Render Bool) : Render Signal :=
  match clauses with
  | [] => return .normal
  | c :: more => do if ← select c then c.run else runFirst more select

/-- The condition of a clause of `if` holds; a clause without one always matches. -/
def conditionHolds (c : ClauseView) : Render Bool :=
  match c.args with
  | .expr e => Render.located c.offset (Render.holds e)
  | _ => return true

/-- The body when the condition decides for it, else the first clause whose condition holds. -/
def runCondition (negated : Bool) (v : View) : Render Signal := do
  let e ← v.expr
  if (← Render.holds e) != negated then v.block else runFirst v.clauses conditionHolds

/-- One of the values is equal to the subject. -/
def anyEquals (offset : Nat) (subject : Value) : List Expr → Render Bool
  | [] => return false
  | e :: es => do
    let v ← Render.located offset (Render.valueAt [1] e)
    if v.equals subject then return true else anyEquals offset subject es

/-- A clause of `case` holds the subject; a clause without values always matches. -/
def holdsSubject (subject : Value) (c : ClauseView) : Render Bool :=
  match c.args with
  | .exprList es => anyEquals c.offset subject es
  | _ => return true

/-- The first clause that holds the subject. -/
def runChoice (v : View) : Render Signal := do
  let subject ← Render.valueAt [0] (← v.expr)
  runFirst v.clauses (holdsSubject subject)

/-! ### Loops -/

/-- What a turn of a loop can ask about its place among `length` turns. -/
def loopInfo (index length : Nat) : Value :=
  .dict [
    (.str "index", .int (Number.ofCount (index + 1))),
    (.str "index0", .int (Number.ofCount index)),
    (.str "rindex", .int (Number.ofCount (length - index))),
    (.str "rindex0", .int (Number.ofCount (length - index - 1))),
    (.str "first", .bool (index == 0)),
    (.str "last", .bool (index + 1 == length)),
    (.str "length", .int (Number.ofCount length))]

/-- The name of the loop's place in each dialect. -/
def loopInfoName : Mode → String
  | .standard => "forloop"
  | .python => "loop"

/-- Binds one target to the item, or several to the items of the item. -/
def bindTargets (targets : List String) (item : Value) : Render Unit :=
  match targets with
  | [target] => Render.modifyScope fun s => s.setLocal target item
  | targets => do
    let values ← Render.lift item.iterate
    if values.length ≠ targets.length then
      Render.fault (.cannotUnpack values.length targets.length)
    else
      (targets.zip values).forM fun (target, v) => Render.modifyScope fun s => s.setLocal target v

/-- A count in the head of a loop; a negative one counts as zero. -/
def countOf (e : Expr) : Render Nat := do
  return (← Render.lift (← Render.value e).toInt).toInt.toNat

/-- The items without the first ones, as many as `e` says. -/
def dropItems (e : Option Expr) (items : List Value) : Render (List Value) :=
  match e with
  | some e => do return items.drop (← countOf e)
  | none => return items

/-- The first items, as many as `e` says. -/
def takeItems (e : Option Expr) (items : List Value) : Render (List Value) :=
  match e with
  | some e => do return items.take (← countOf e)
  | none => return items

/-- The items without the first `offset`, of those the first `limit`, then reversed, as the head
asks for. -/
def chosenItems (head : LoopHead) (items : List Value) : Render (List Value) := do
  let items ← takeItems head.limit (← dropItems head.offset items)
  return if head.reversed then items.reverse else items

/-- The items that a loop goes through; in the standard dialect the absent has none. -/
def loopItems (head : LoopHead) : Render (List Value) := do
  let v ← Render.lastingValue head.iterable
  let items ← match v, ← Render.mode with
    | .nil, .standard => pure []
    | v, _ => Render.lift v.iterate
  chosenItems head items

/-- The turns for the items from `index` on, each in a frame of its own; whether one of them broke
the loop off. -/
def forTurns (targets : List String) (info : String) (length : Nat) (body : Render Signal) :
    Nat → List Value → Render Bool
  | _, [] => return false
  | index, item :: items => do
    let signal ← Render.framed do
      bindTargets targets item
      Render.modifyScope fun s => s.setLocal info (loopInfo index length)
      body
    if signal = .breakLoop then return true
    else forTurns targets info length body (index + 1) items

/-- The first clause of a loop. -/
def runElse (v : View) : Render Signal :=
  match v.clauses with
  | c :: _ => c.run
  | [] => return .normal

/-- A turn for every item, then the clause: in the standard dialect when there was no item, in
python unless the loop was broken off. -/
def runFor (v : View) : Render Signal := do
  match v.args with
  | .forLoop head =>
    let items ← loopItems head
    let mode ← Render.mode
    let broke ← forTurns head.targets (loopInfoName mode) items.length v.body 0 items
    let elseRuns := match mode with
      | .standard => items.isEmpty
      | .python => !broke
    if elseRuns then runElse v else return .normal
  | _ => Render.fault .needsLoopHead

/-- Turns while a condition holds, at most `n`; whether one of them broke the loop off. -/
def whileTurns (cond : Expr) (body : Render Signal) : Nat → Render Bool
  | 0 => throw .exhausted
  | n + 1 => do
    if ← Render.holds cond then
      if (← Render.framed body) = .breakLoop then return true else whileTurns cond body n
    else return false

/-- Turns while the condition holds, then the clause unless the loop was broken off. -/
def runWhile (v : View) : Render Signal := do
  let cond ← v.expr
  if ← whileTurns cond v.body (← read).turns then return .normal else runElse v

/-! ### Variables and output -/

/-- Binds a name to a value. -/
def runAssign (v : View) : Render Signal :=
  match v.args with
  | .assign name e => do
    let value ← Render.lastingValue e
    Render.modifyScope fun s => s.assign name value
    return .normal
  | _ => Render.fault .needsAssignment

/-- Binds a name to what the body writes. -/
def runCapture (v : View) : Render Signal := do
  let name ← v.varName
  let (signal, text) ← Render.aside v.block
  Render.modifyScope fun s => s.assign name (.str text)
  return signal

/-- Writes a value. -/
def runEcho (v : View) : Render Signal := do
  Render.writeValue (← Render.value (← v.expr))
  return .normal

/-- Writes a counter and changes it: upwards it is written before the change, downwards after. -/
def runCounter (step : Int64) (v : View) : Render Signal := do
  let name ← v.varName
  let before := (← get).scope.counter name
  Render.modifyScope fun s => s.bump name step
  Render.write (Number.writeInt (if 0 < step then before else before + step).toInt)
  return .normal

/-- What a tag with this behavior does. -/
def Behavior.run : Behavior → View → Render Signal
  | .condition negated, v => runCondition negated v
  | .clause, v => v.block
  | .choice, v => runChoice v
  | .forLoop, v => runFor v
  | .whileLoop, v => runWhile v
  | .control signal, _ => return signal
  | .assign, v => runAssign v
  | .capture, v => runCapture v
  | .echo, v => runEcho v
  | .counter step, v => runCounter step v
  | .host run, v => run v

end TemplateEngine.Tag
