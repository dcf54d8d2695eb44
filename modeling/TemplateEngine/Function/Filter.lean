import TemplateEngine.Function.Builtin
import TemplateEngine.Function.Method

/-!
# Filters

A filter turns a value and arguments into a value.  A table holds the filters by name; `standard`
is the table that every template starts with.
-/

namespace TemplateEngine

/-- What a filter does with a value and its arguments. -/
abbrev Filter := Value → List Value → Except Error Value

/-- Filters by name; the first entry of a name counts. -/
abbrev FilterTable := List (String × Filter)

namespace Filter

/-- A filter input as text: nothing for the absent. -/
def textOf : Value → String
  | .nil => ""
  | v => v.display

/-- A filter input as characters. -/
def charsOf (v : Value) : List Char := (textOf v).toList

/-- A string result. -/
def string (cs : List Char) : Except Error Value := .ok (.str (String.ofList cs))

/-- A filter input as a number: strings are read and the absent is zero. -/
def numberOf : Value → Except Error Value
  | .str s =>
    match Number.readInt? (Text.trim s.toList) with
    | some i => .ok (.int i)
    | none => (Value.toFloat (.str s)).map .float
  | .nil => .ok (.int 0)
  | v => if v.number?.isSome then .ok v else fail (.notANumber v.typeName)

/-- An argument that a filter cannot do without. -/
def argument (filter : String) (args : List Value) (i : Nat) : Except Error Value :=
  match args[i]? with
  | some v => .ok v
  | none => fail (.filterArguments filter (i + 1))

/-- Arithmetic on the value and the first argument, both as numbers. -/
def arithmetic (filter : String) (op : Value → Value → Except Error Value) : Filter :=
  fun v args => do
    let x ← numberOf v
    op x (← numberOf (← argument filter args 0))

/-- The items of a value joined by a text, a space when none is given. -/
def join : Filter := fun v args => do
  let sep := args.head?.elim " " textOf
  return .str (sep.intercalate ((← v.iterate).map textOf))

/-- The parts of a text between separators; the empty separator parts it into characters. -/
def split : Filter := fun v args => do
  match charsOf (← argument "split" args 0) with
  | [] => return .list (Value.characters (textOf v))
  | c :: more => return Method.strings (Text.splitOn c more (charsOf v))

/-- Characters or items in reverse order. -/
def reverse : Filter := fun v _ =>
  match v with
  | .str s => string s.toList.reverse
  | v => v.iterate.map fun items => .list items.reverse

/-- The first argument in place of the absent, false and the empty. -/
def orElse : Filter := fun v args => do
  let fallback ← argument "default" args 0
  return if !v.isPresent || v.length? == some 0 then fallback else v

/-- The text with every occurrence of the first argument replaced by the second. -/
def replace : Filter := fun v args => do
  let old := charsOf (← argument "replace" args 0)
  string (Text.replace old (args[1]?.elim [] charsOf) (charsOf v))

/-- The absolute value of a number. -/
def abs : Filter := fun v _ => do
  match ← numberOf v with
  | .float x => return .float x.abs
  | n => Value.ofExact (← n.toInt).toInt.natAbs

/-- The filters that every template starts with. -/
def standard : FilterTable := [
  ("size", fun v _ => .ok (.int (Number.ofCount (v.length?.getD 0)))),
  ("len", fun v _ => Builtin.lengthOf v),
  ("upper", fun v _ => string (Text.upper (charsOf v))),
  ("lower", fun v _ => string (Text.lower (charsOf v))),
  ("capitalize", fun v _ => string (Text.capitalize (charsOf v))),
  ("strip", fun v _ => string (Text.trim (charsOf v))),
  ("join", join),
  ("split", split),
  ("first", fun v _ => .ok ((v.item? (.int 0)).getD .nil)),
  ("last", fun v _ => .ok ((v.item? (.int (-1))).getD .nil)),
  ("reverse", reverse),
  ("sort", fun v _ => do return .list (← Value.sort (← v.iterate))),
  ("uniq", fun v _ => v.iterate.map fun items => .list (Value.distinct items)),
  ("default", orElse),
  ("append", fun v args => do return .str (textOf v ++ textOf (← argument "append" args 0))),
  ("prepend", fun v args => do return .str (textOf (← argument "prepend" args 0) ++ textOf v)),
  ("replace", replace),
  ("plus", arithmetic "plus" Value.add),
  ("minus", arithmetic "minus" Value.sub),
  ("times", arithmetic "times" Value.mul),
  ("abs", abs),
  ("string", fun v _ => .ok (.str (textOf v))),
  ("str", fun v _ => .ok (.str (textOf v))),
  ("int", fun v _ => v.toInt.map .int)]

end Filter

namespace FilterTable

/-- The filter of this name. -/
def get? (table : FilterTable) (name : String) : Option Filter := table.lookup name

/-- The table without this name. -/
def erase (table : FilterTable) (name : String) : FilterTable :=
  table.filter fun entry => entry.1 != name

/-- The table with this name standing for `filter`. -/
def insert (table : FilterTable) (name : String) (filter : Filter) : FilterTable :=
  (name, filter) :: erase table name

end FilterTable

end TemplateEngine
