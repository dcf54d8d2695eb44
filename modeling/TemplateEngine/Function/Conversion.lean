import TemplateEngine.Number.Reading
import TemplateEngine.Text.Blank
import TemplateEngine.Value.Text
import TemplateEngine.Error

/-!
# Conversions to numbers

What has an integer and what has a number: numbers, truth values, and strings that spell one
between white space.
-/

namespace TemplateEngine.Value

/-- The integer of a value; a floating point number loses its fractional part. -/
def toInt : Value → Except Error Int64
  | .bool b => .ok (Number.ofBool b)
  | .int i => .ok i
  | .float x =>
    if x.fitsWord then .ok (Int64.ofInt x.truncate)
    else fail (.noInteger (Layout.message.write x))
  | .str s =>
    match Number.readInt? (Text.trim s.toList) with
    | some i => .ok i
    | none => fail (.badIntegerText (Text.literal s))
  | v => fail (.notIntegerLike v.typeName)

/-- The floating point number of a value. -/
def toFloat (v : Value) : Except Error Binary64 :=
  match v.asFloat? with
  | some x => .ok x
  | none =>
    match v with
    | .str s =>
      match Binary64.read? (Text.trim s.toList) with
      | some x => .ok x
      | none => fail (.badFloatText (Text.literal s))
    | v => fail (.notFloatLike v.typeName)

end TemplateEngine.Value
