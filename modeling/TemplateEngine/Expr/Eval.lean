import TemplateEngine.Expr.Basic
import TemplateEngine.Host
import TemplateEngine.Scope

/-!
# Evaluation

The value of an expression in a scope.  Operands are evaluated from the left, and one that does
not decide anything is not evaluated.  Evaluation changes nothing: what it would have to remember
of its place is handed in as a site.
-/

namespace TemplateEngine

namespace Value

/-- An element of a set or a key of a dict. -/
def hashable (v : Value) : Except Error Value :=
  if v.isHashable then .ok v else fail (.unhashable v.typeName)

/-! ### Members -/

/-- The member of this name among items: under the name, or at the index that the name spells. -/
def namedItem? (base : Value) (name : String) : Option Value :=
  match base.item? (.str name) with
  | some v => some v
  | none => (Number.readInt? name.toList).bind fun i => base.item? (.int i)

/-- The members that every sequence has in standard expressions. -/
def sequenceMember? (base : Value) (name : String) : Option Value :=
  if name == "size" then base.length?.map fun n => .int (Number.ofCount n)
  else if name == "first" then base.item? (.int 0)
  else if name == "last" then base.item? (.int (-1))
  else none

/-- `base.name`: an attribute, then a method, then an item, then what sequences have. -/
def member (mode : Mode) (site : Site) (base : Value) (name : String) : Except Error Value :=
  let own :=
    match base with
    | .object _ _ attrs _ _ => attribute? attrs name
    | _ => none
  let method :=
    match mode with
    | .python => (Method.of? base name).map fun m => Value.method site base m
    | .standard => none
  let extra :=
    match mode with
    | .python => none
    | .standard => base.sequenceMember? name
  match own <|> method <|> base.namedItem? name <|> extra with
  | some v => .ok v
  | none => fail (.noAttribute base.typeName name)

/-- Why there is no item of `base` under `key`. -/
def missingItem (base key : Value) : RenderFault :=
  match base with
  | .dict _ | .object .. => .keyNotFound key.repr
  | .list _ | .tuple _ | .str _ =>
    if key.asInt?.isSome then .indexOutOfRange base.typeName
    else .badIndex base.typeName key.typeName
  | v => .notSubscriptable v.typeName

/-- `base[key]`: an item, or an attribute of an object. -/
def itemOrAttribute (base key : Value) : Except Error Value :=
  let own :=
    match base, key with
    | .object _ _ attrs _ _, .str name => attribute? attrs name
    | _, _ => none
  match base.item? key <|> own with
  | some v => .ok v
  | none => fail (missingItem base key)

/-! ### Operators -/

/-- `<`, `<=`, `>` or `>=` holds between values in this order. -/
def holds (op : BinaryOp) (o : Ordering) : Bool :=
  match op with
  | .lt => o == .lt
  | .le => o != .gt
  | .gt => o == .gt
  | _ => o != .lt

/-- The symbol of an order. -/
def orderSymbol : BinaryOp → String
  | .lt => "<"
  | .le => "<="
  | .gt => ">"
  | _ => ">="

/-- `a < b` and its kin.  Nothing holds of unordered numbers, and in the standard dialect nothing
holds of the absent. -/
def compareBy (mode : Mode) (op : BinaryOp) (a b : Value) : Except Error Value := do
  if mode = .standard && (a.isNil || b.isNil) then return .bool false
  else
    match ← order? (orderSymbol op) a b with
    | none => return .bool false
    | some o => return .bool (holds op o)

/-- `a contains b`: a part of a text, or an item; nothing else contains anything. -/
def holdsItem (a b : Value) : Except Error Value :=
  match a with
  | .str s =>
    let part := match b with
      | .str t => t
      | v => v.plain
    .ok (.bool (Text.occursIn part.toList s.toList))
  | .list _ | .tuple _ | .set _ | .dict _ | .object .. => (a.contains b).map .bool
  | _ => .ok (.bool false)

/-- The operand that decides `or` or `and`: itself in python, its truth in standard. -/
def asChoice (mode : Mode) (v : Value) : Value :=
  match mode with
  | .python => v
  | .standard => .bool (v.truthy mode)

/-- The value of an operator whose left operand decides it. -/
def decided? (mode : Mode) (op : BinaryOp) (a : Value) : Option Value :=
  match op with
  | .or => if a.truthy mode then some (a.asChoice mode) else none
  | .and => if a.truthy mode then none else some (a.asChoice mode)
  | _ => none

/-- The value of an operator whose left operand does not decide it. -/
def binary (mode : Mode) (op : BinaryOp) (a b : Value) : Except Error Value :=
  match op with
  | .or | .and => .ok (b.asChoice mode)
  | .eq => .ok (.bool (a.equals b))
  | .ne => .ok (.bool !(a.equals b))
  | .lt | .le | .gt | .ge => compareBy mode op a b
  | .isIn => (b.contains a).map .bool
  | .notIn => (b.contains a).map fun found => .bool !found
  | .is => .ok (.bool (a.identical b))
  | .isNot => .ok (.bool !(a.identical b))
  | .contains => a.holdsItem b
  | .bitOr => a.bitOr b
  | .bitXor => a.bitXor b
  | .bitAnd => a.bitAnd b
  | .shl => a.shiftLeft b
  | .shr => a.shiftRight b
  | .add => a.add b
  | .sub => a.sub b
  | .mul => a.mul b
  | .div => a.trueDiv b
  | .floorDiv => a.floorDiv b
  | .mod => a.mod b
  | .pow => a.pow b

/-- The value of an operator before one operand. -/
def unary (mode : Mode) (op : UnaryOp) (v : Value) : Except Error Value :=
  match op with
  | .not => .ok (.bool !(v.truthy mode))
  | .neg => v.neg
  | .pos => v.pos
  | .invert => v.invert

/-- The value has items, and none of them. -/
def hasNoItems (v : Value) : Bool := v.length? == some 0

/-- A bound of a slice: an integer or absent. -/
def sliceBound (v : Value) : Except Error (Option Int64) :=
  match v with
  | .nil => .ok none
  | v =>
    match v.asInt? with
    | some i => .ok (some i)
    | none => fail .badSliceBound

/-- The integers from one to another, both included. -/
def between (first last : Int64) : Value :=
  .list ((Number.progression first.toInt (last.toInt + 1) 1).map fun i => .int (Int64.ofInt i))

end Value

/-- A value passed through a filter: one of the table, or in python any function in scope. -/
def Host.applyFilter (host : Host) (scope : Scope) (name : String) (value : Value)
    (args : List Value) : Except Error Value :=
  match host.filters.get? name with
  | some filter => filter value args
  | none =>
    match scope.mode, scope.get? name with
    | .python, some (.builtin f) => host.callValue (.builtin f) (value :: args)
    | .python, some (.method site receiver m) =>
      host.callValue (.method site receiver m) (value :: args)
    | .python, some (.host identity f) => host.callValue (.host identity f) (value :: args)
    | _, _ => fail (.noSuchFilter name)

/-- `==` and `!=` -/
def BinaryOp.isEquality : BinaryOp → Bool
  | .eq | .ne => true
  | _ => false

namespace Expr

/-- The expression is the word `empty`. -/
def isEmpty : Expr → Bool
  | .empty => true
  | _ => false

mutual

/-- The value of an expression, evaluated at a site. -/
def eval (host : Host) (scope : Scope) (site : Site) : Expr → Except Error Value
  | .literal v => .ok v
  | .list items => do return .list (← evalAll host scope site 0 items)
  | .tuple items => do return .tuple (← evalAll host scope site 0 items)
  | .set items => do
    let values ← evalAll host scope site 0 items
    return .set (Value.distinct (← values.mapM Value.hashable))
  | .dict entries => do
    return .dict (Value.insertAll [] (← evalEntries host scope site 0 entries))
  | .range first last => do
    let a ← (← eval host scope (0 :: site) first).toInt
    let b ← (← eval host scope (1 :: site) last).toInt
    return Value.between a b
  | .empty => .ok (.str "")
  | .var name => scope.lookup name
  | .attr base name => do
    (← eval host scope (0 :: site) base).member scope.mode site name
  | .index base key => do
    let b ← eval host scope (0 :: site) base
    b.itemOrAttribute (← eval host scope (1 :: site) key)
  | .slice base start stop step => do
    let b ← eval host scope (0 :: site) base
    let i ← evalBound host scope (1 :: site) start
    let j ← evalBound host scope (2 :: site) stop
    let k ← evalBound host scope (3 :: site) step
    b.slice i j k
  | .call callee args => do
    let f ← eval host scope (0 :: site) callee
    host.callValue f (← evalAll host scope site 1 args)
  | .unary op operand => do
    (← eval host scope (0 :: site) operand).unary scope.mode op
  | .binary op left right =>
    if scope.mode = .standard ∧ op.isEquality ∧ left.isEmpty then do
      return .bool ((← eval host scope (1 :: site) right).hasNoItems == (op == .eq))
    else if scope.mode = .standard ∧ op.isEquality ∧ right.isEmpty then do
      return .bool ((← eval host scope (0 :: site) left).hasNoItems == (op == .eq))
    else do
      let a ← eval host scope (0 :: site) left
      match a.decided? scope.mode op with
      | some v => return v
      | none => a.binary scope.mode op (← eval host scope (1 :: site) right)
  | .ternary cond yes no => do
    if (← eval host scope (0 :: site) cond).truthy scope.mode then
      eval host scope (1 :: site) yes
    else eval host scope (2 :: site) no
  | .filter value name args => do
    let v ← eval host scope (0 :: site) value
    host.applyFilter scope name v (← evalAll host scope site 1 args)

/-- The values of some expressions; the first of them is part `i` of the expression at the site. -/
def evalAll (host : Host) (scope : Scope) (site : Site) (i : Nat) :
    List Expr → Except Error (List Value)
  | [] => .ok []
  | e :: es => do
    let v ← eval host scope (i :: site) e
    return v :: (← evalAll host scope site (i + 1) es)

/-- The keys and values of some entries. -/
def evalEntries (host : Host) (scope : Scope) (site : Site) (i : Nat) :
    List (Expr × Expr) → Except Error (List (Value × Value))
  | [] => .ok []
  | (k, v) :: es => do
    let key ← (← eval host scope (i :: site) k).hashable
    let value ← eval host scope ((i + 1) :: site) v
    return (key, value) :: (← evalEntries host scope site (i + 2) es)

/-- The value of a bound of a slice. -/
def evalBound (host : Host) (scope : Scope) (site : Site) :
    Option Expr → Except Error (Option Int64)
  | none => .ok none
  | some e => do (← eval host scope site e).sliceBound

end

end Expr

end TemplateEngine
