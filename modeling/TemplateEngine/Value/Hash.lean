import TemplateEngine.Value.Basic

/-!
# What values are hashed by

Sets and dicts find their items and keys by a hash.  `Value.hashed` is the row of data that the hash
of a value is computed from: a number that tells the kinds of values apart, and behind it what
distinguishes values of the kind.  Equal values have to give the same row.
-/

namespace TemplateEngine

/-- What objects and functions are told apart by. -/
inductive Identity where
  | object (identity : Nat)
  | builtin (f : Builtin)
  | method (site : Site)
  | host (identity : Nat)
deriving DecidableEq, Repr

/-- A piece of what a hash is computed from. -/
inductive HashInput where
  /-- The kind of a value. -/
  | kind (n : Nat)
  | word (i : Int64)
  | bits (b : UInt64)
  | text (s : String)
  /-- How many items or entries there are. -/
  | count (n : Nat)
  | identity (i : Identity)
deriving DecidableEq

/-- A number is hashed as the word that it equals, if there is one. -/
def Numeric.hashed : Numeric → List HashInput
  | .int i => [.kind 1, .word i]
  | .float x =>
    match x.toWord? with
    | some i => [.kind 1, .word i]
    | none => [.kind 2, .bits x.bits]

namespace Value

mutual

/-- What a value is hashed by.  Of sets and dicts only the size counts, because equality does not
regard their order. -/
def hashed : Value → List HashInput
  | .nil => [.kind 0]
  | .bool b => Numeric.hashed (.int (Number.ofBool b))
  | .int i => Numeric.hashed (.int i)
  | .float x => Numeric.hashed (.float x)
  | .str s => [.kind 3, .text s]
  | .list xs | .tuple xs => .kind 4 :: .count xs.length :: hashedAll xs
  | .set xs => [.kind 5, .count xs.length]
  | .dict es => [.kind 6, .count es.length]
  | .object i .. => [.kind 7, .identity (.object i)]
  | .builtin f => [.kind 8, .identity (.builtin f)]
  | .method site .. => [.kind 8, .identity (.method site)]
  | .host i _ => [.kind 8, .identity (.host i)]

/-- What the items of a sequence are hashed by, one behind the other. -/
def hashedAll : List Value → List HashInput
  | [] => []
  | x :: xs => hashed x ++ hashedAll xs

end

end Value

end TemplateEngine
