import TemplateEngine.Error
import TemplateEngine.Value.Equality

/-!
# Host data

What a host program hands to a template, and the value that it becomes.  Records and maps become
dicts, sequences lists, tuples tuples, and what is wrapped in a name becomes what is wrapped.
-/

namespace TemplateEngine

/-- The two calls that an entry of a map is made of. -/
inductive MapSide where
  | key | value
deriving DecidableEq, Repr

/-- Data of a host program. -/
inductive Datum where
  | unit
  | bool (b : Bool)
  /-- An integer of any width up to a word. -/
  | int (i : Int64)
  /-- A word without a sign. -/
  | nat (n : UInt64)
  | float (x : Binary64)
  | char (c : Char)
  | str (s : String)
  | bytes (bs : List UInt8)
  /-- An optional value that is not there. -/
  | absent
  /-- An optional value that is there. -/
  | present (d : Datum)
  /-- A record type without fields. -/
  | unitRecord
  /-- A variant without content, by its name. -/
  | variant (name : String)
  /-- A type around another one. -/
  | wrapped (d : Datum)
  /-- A variant with one content. -/
  | wrappedVariant (name : String) (d : Datum)
  | seq (items : List Datum)
  | tuple (items : List Datum)
  /-- A map as its keys and values come. -/
  | map (sides : List (MapSide × Datum))
  | record (fields : List (String × Datum))

namespace Datum

/-- A map of entries, each given as its key and then its value. -/
def ofEntries (entries : List (Datum × Datum)) : Datum :=
  .map (entries.flatMap fun (k, v) => [(.key, k), (.value, v)])

/-- The value of a word without a sign: an integer if it fits, else a floating point number. -/
def natValue (n : UInt64) : Value :=
  match Number.fit? n.toNat with
  | some i => .int i
  | none => .float (.ofInt n.toNat)

mutual

/-- The value that host data becomes. -/
def toValue : Datum → Except Error Value
  | .unit | .absent | .unitRecord => .ok .nil
  | .bool b => .ok (.bool b)
  | .int i => .ok (.int i)
  | .nat n => .ok (natValue n)
  | .float x => .ok (.float x)
  | .char c => .ok (.str c.toString)
  | .str s => .ok (.str s)
  | .bytes bs => .ok (.list (bs.map fun b => .int (Number.ofCount b.toNat)))
  | .variant name => .ok (.str name)
  | .present d => toValue d
  | .wrapped d => toValue d
  | .wrappedVariant _ d => toValue d
  | .seq items => do return .list (← toValues items)
  | .tuple items => do return .tuple (← toValues items)
  | .map sides => do return .dict (← mapEntries none [] sides)
  | .record fields => do return .dict (← fieldEntries [] fields)

/-- The values of items in order. -/
def toValues : List Datum → Except Error (List Value)
  | [] => .ok []
  | d :: ds => do
    let v ← toValue d
    return v :: (← toValues ds)

/-- The entries of a map: every value goes under the key before it, and every key is used once. -/
def mapEntries (key : Option Value) (entries : List (Value × Value)) :
    List (MapSide × Datum) → Except Error (List (Value × Value))
  | [] => .ok entries
  | (.key, d) :: sides => do
    let k ← toValue d
    if k.isHashable then mapEntries (some k) entries sides else fail (.unhashable k.typeName)
  | (.value, d) :: sides => do
    let v ← toValue d
    match key with
    | some k => mapEntries none (Value.insertEntry k v entries) sides
    | none => fail .missingKey

/-- The entries of a record, under the names of its fields. -/
def fieldEntries (entries : List (Value × Value)) :
    List (String × Datum) → Except Error (List (Value × Value))
  | [] => .ok entries
  | (name, d) :: fields => do
    let v ← toValue d
    fieldEntries (Value.insertEntry (.str name) v entries) fields

end

end Datum

end TemplateEngine
