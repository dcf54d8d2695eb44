import TemplateEngine.HostData.Datum
import TemplateEngine.HostData.Decode

/-!
# JSON values

A JSON value as host data, and back.  Numbers that JSON cannot write are read as null.
-/

namespace TemplateEngine

/-- A JSON value. -/
inductive Json where
  | null
  | bool (b : Bool)
  | int (i : Int64)
  | float (x : Binary64)
  | str (s : String)
  | array (items : List Json)
  | object (fields : List (String × Json))

namespace Json

mutual

/-- A JSON value as host data.  An integer is handed over without a sign unless it is negative. -/
def toDatum : Json → Datum
  | .null => .unit
  | .bool b => .bool b
  | .int i => if 0 ≤ i then .nat i.toUInt64 else .int i
  | .float x => .float x
  | .str s => .str s
  | .array items => .seq (toData items)
  | .object fields => .map (toSides fields)

/-- Some JSON values as host data. -/
def toData : List Json → List Datum
  | [] => []
  | j :: js => toDatum j :: toData js

/-- The fields of an object as the sides of a map. -/
def toSides : List (String × Json) → List (MapSide × Datum)
  | [] => []
  | (k, j) :: fields => (.key, .str k) :: (.value, toDatum j) :: toSides fields

end

/-- A key of an object.  Only the first one is called a key when it is refused. -/
def key (first : Bool) : Decoder String
  | .str s => .ok s
  | v => Decode.wrongType (if first then "a string key" else "a string") v

mutual

/-- A value as a JSON value. -/
def decode : Value → Except Error Json
  | .nil => .ok .null
  | .bool b => .ok (.bool b)
  | .int i => .ok (.int i)
  | .float x => .ok (if x.isFinite then .float x else .null)
  | .str s => .ok (.str s)
  | .list xs => do return .array (← decodeAll xs)
  | .tuple xs => do return .array (← decodeAll xs)
  | .set xs => do return .array (← decodeAll xs)
  | .dict es => do return .object (← decodeEntries true es)
  | v => Decode.wrongType "any valid JSON value" v

/-- Items as JSON values. -/
def decodeAll : List Value → Except Error (List Json)
  | [] => .ok []
  | x :: xs => do
    let j ← decode x
    return j :: (← decodeAll xs)

/-- Entries as the fields of an object. -/
def decodeEntries (first : Bool) : List (Value × Value) → Except Error (List (String × Json))
  | [] => .ok []
  | (k, v) :: es => do
    let name ← key first k
    let j ← decode v
    return (name, j) :: (← decodeEntries false es)

end

end Json

end TemplateEngine
