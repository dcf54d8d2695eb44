import TemplateEngine.Config
import TemplateEngine.Number.Layout
import TemplateEngine.Text.Quoted
import TemplateEngine.Value.Basic

/-!
# Values as host data

Reading a value as a type of the host.  A decoder takes the values that it expects and says of any
other what it found and what it expected.  Objects and functions have no host form at all.
-/

namespace TemplateEngine

/-- A way to read a value as host data. -/
abbrev Decoder (α : Type) := Value → Except Error α

namespace Decode

/-- Failure with a decoding fault. -/
def fault {α : Type} (f : DecodeFault) : Except Error α := fail (.decode f)

/-- A value as messages about types describe it, if it has a host form. -/
def describe? : Value → Option String
  | .nil => some "unit value"
  | .bool b => some ("boolean \x60" ++ (if b then "true" else "false") ++ "\x60")
  | .int i => some ("integer \x60" ++ Number.writeInt i.toInt ++ "\x60")
  | .float x => some ("floating point \x60" ++ Layout.pointed.write x ++ "\x60")
  | .str s => some ("string " ++ Text.quoted s)
  | .list _ | .tuple _ | .set _ => some "sequence"
  | .dict _ => some "map"
  | .object .. | .builtin _ | .method .. | .host .. => none

/-- Failure because a value is of another type. -/
def wrongType {α : Type} (expected : String) (v : Value) : Except Error α :=
  match describe? v with
  | some found => fault (.invalidType found expected)
  | none => fault (.noHostForm v.typeName)

/-- Failure because a value of the right type is not among the expected ones. -/
def wrongValue {α : Type} (expected : String) (v : Value) : Except Error α :=
  match describe? v with
  | some found => fault (.invalidValue found expected)
  | none => fault (.noHostForm v.typeName)

/-! ### Plain types -/

/-- A truth value. -/
def bool : Decoder Bool
  | .bool b => .ok b
  | v => wrongType "a boolean" v

/-- An integer. -/
def int : Decoder Int64
  | .int i => .ok i
  | v => wrongType "i64" v

/-- An integer from 0 to 255. -/
def byte : Decoder UInt8
  | .int i => if 0 ≤ i ∧ i ≤ 255 then .ok (UInt8.ofNat i.toInt.toNat) else wrongValue "u8" (.int i)
  | v => wrongType "u8" v

/-- A number; an integer becomes a floating point number. -/
def float : Decoder Binary64
  | .float x => .ok x
  | .int i => .ok (.ofInt i.toInt)
  | v => wrongType "f64" v

/-- A text. -/
def string : Decoder String
  | .str s => .ok s
  | v => wrongType "a string" v

/-- A text of one character. -/
def char : Decoder Char
  | .str s =>
    match s.toList with
    | [c] => .ok c
    | _ => wrongValue "a character" (.str s)
  | v => wrongType "a character" v

/-- Nothing. -/
def unit : Decoder Unit
  | .nil => .ok ()
  | v => wrongType "unit" v

/-- A record type without fields. -/
def unitRecord (name : String) : Decoder Unit
  | .nil => .ok ()
  | v => wrongType ("unit struct " ++ name) v

/-! ### Containers -/

/-- The absent, or a value read by `d`. -/
def option {α : Type} (d : Decoder α) : Decoder (Option α)
  | .nil => .ok none
  | v => (d v).map some

/-- The items of a sequence. -/
def items? : Value → Option (List Value)
  | .list xs | .tuple xs | .set xs => some xs
  | _ => none

/-- A sequence whose items are read by `d`. -/
def list {α : Type} (d : Decoder α) : Decoder (List α) := fun v =>
  match items? v with
  | some xs => xs.mapM d
  | none => wrongType "a sequence" v

/-- The item at a place of a sequence that is read by position. -/
def itemAt {α : Type} (expected : String) (xs : List Value) (i : Nat) (d : Decoder α) :
    Except Error α :=
  match xs[i]? with
  | some x => d x
  | none => fault (.invalidLength i expected)

/-- A sequence of two items or more, of which the first two are read. -/
def pair {α β : Type} (first : Decoder α) (second : Decoder β) : Decoder (α × β) := fun v =>
  match items? v with
  | some xs => do
    let a ← itemAt "a tuple of size 2" xs 0 first
    return (a, ← itemAt "a tuple of size 2" xs 1 second)
  | none => wrongType "a tuple of size 2" v

/-- The entries of a mapping, keys and values in turn. -/
def entries {α β : Type} (key : Decoder α) (value : Decoder β) (es : List (Value × Value)) :
    Except Error (List (α × β)) :=
  es.mapM fun (k, v) => do
    let a ← key k
    return (a, ← value v)

/-- A mapping. -/
def map {α β : Type} (key : Decoder α) (value : Decoder β) : Decoder (List (α × β))
  | .dict es => entries key value es
  | v => wrongType "a map" v

/-- A mapping whose first value is asked for before its key, which is refused. -/
def valueFirst {α : Type} : Decoder α
  | .dict _ => fault .valueBeforeKey
  | v => wrongType "a mapping" v

/-! ### Variants and records -/

/-- The name of a variant, one of those listed. -/
def variantName (variants : List String) : Decoder String
  | .str s => if variants.contains s then .ok s else fault (.unknownVariant s variants)
  | v => fault (.notAVariantName v.typeName)

/-- The name of a field. -/
def fieldName : Decoder String
  | .str s => .ok s
  | v => wrongType "field identifier" v

/-- The entries of a mapping, one after the other: each field is read as it comes into what has
been read so far. -/
def fields {α : Type} (read : α → String → Value → Except Error α) (start : α)
    (es : List (Value × Value)) : Except Error α :=
  es.foldlM (fun a (k, v) => do read a (← fieldName k) v) start

/-- A field that has to be there. -/
def required {α : Type} (name : String) : Option α → Except Error α
  | some a => .ok a
  | none => fault (.missingField name)

/-! ### Configurations -/

/-- A dialect by its name. -/
def mode : Decoder Mode := fun v => do
  if (← variantName ["liquid", "standard", "python"] v) = "python" then return .python
  else return .standard

/-- A configuration, by field or by position; what is not given is as in the standard one. -/
def config : Decoder Config := fun v =>
  match items? v, v with
  | some xs, _ => do
    let m ← match xs[0]? with
      | some x => mode x
      | none => .ok .standard
    let d ← match xs[1]? with
      | some x => bool x
      | none => .ok false
    return ⟨m, d⟩
  | none, .dict es =>
    fields (fun (c : Config) name v =>
      if name = "mode" then do return { c with mode := ← mode v }
      else if name = "debug" then do return { c with debug := ← bool v }
      else .ok c) Config.standard es
  | none, v => wrongType "struct Config" v

end Decode

end TemplateEngine
