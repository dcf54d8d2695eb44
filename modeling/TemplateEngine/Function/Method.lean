import TemplateEngine.Function.Arguments
import TemplateEngine.Text.Case
import TemplateEngine.Value.Sequence
import TemplateEngine.Value.Text

/-!
# Methods

The functions that belong to strings, dicts, lists and tuples.  `Method.of?` finds the method of a
value by name, `Method.apply` calls one on its receiver.
-/

namespace TemplateEngine.Method

/-- The method of this name that a value has. -/
def of? (receiver : Value) (name : String) : Option Method :=
  let methods :=
    match receiver with
    | .dict _ => ofDict
    | .str _ => ofStr
    | .list _ | .tuple _ => ofSequence
    | _ => []
  methods.find? fun m => m.name == name

/-- The strings of the parts. -/
def strings (parts : List (List Char)) : Value := .list (parts.map fun p => .str (String.ofList p))

/-- A method of a dict. -/
def onDict (m : Method) (entries : List (Value × Value)) (args : List Value) :
    Except Error Value := do
  match m with
  | .items =>
    Arguments.between m.name 0 0 args
    return .list (entries.map fun (k, v) => .tuple [k, v])
  | .keys =>
    Arguments.between m.name 0 0 args
    return .list (entries.map Prod.fst)
  | .values =>
    Arguments.between m.name 0 0 args
    return .list (entries.map Prod.snd)
  | _ =>
    Arguments.between m.name 1 2 args
    return ((args.getD 0 .nil).lookup? entries).getD (args.getD 1 .nil)

/-- `split()` and `split(sep)`: at white space, or at every occurrence of the separator. -/
def splitOf (s : List Char) (sep : Value) : Except Error Value := do
  match sep with
  | .nil => return strings (Text.words s)
  | sep =>
    match (← Arguments.str "split" sep).toList with
    | [] => fail .emptySeparator
    | c :: more => return strings (Text.splitOn c more s)

/-- A method of a string.  `upper` and `lower` take any arguments. -/
def onStr (m : Method) (s : String) (args : List Value) : Except Error Value := do
  let cs := s.toList
  match m with
  | .upper => return .str (String.ofList (Text.upper cs))
  | .lower => return .str (String.ofList (Text.lower cs))
  | .strip =>
    Arguments.between m.name 0 1 args
    match args.head? with
    | none => return .str (String.ofList (Text.trim cs))
    | some v =>
      let set := (← Arguments.str m.name v).toList
      return .str (String.ofList (Text.dropTrailing set.contains (cs.dropWhile set.contains)))
  | .split =>
    Arguments.between m.name 0 1 args
    splitOf cs (args.getD 0 .nil)
  | .startswith =>
    Arguments.between m.name 1 1 args
    let part ← Arguments.str m.name (args.getD 0 .nil)
    return .bool (part.toList.isPrefixOf cs)
  | .endswith =>
    Arguments.between m.name 1 1 args
    let part ← Arguments.str m.name (args.getD 0 .nil)
    return .bool (part.toList.isSuffixOf cs)
  | .replace =>
    Arguments.between m.name 2 2 args
    let old ← Arguments.str m.name (args.getD 0 .nil)
    let new ← Arguments.str m.name (args.getD 1 .nil)
    return .str (String.ofList (Text.replace old.toList new.toList cs))
  | _ =>
    Arguments.between m.name 1 1 args
    let parts ← (← (args.getD 0 .nil).iterate).mapM (Arguments.str m.name)
    return .str (s.intercalate parts)

/-- A method of a list or tuple. -/
def onSequence (m : Method) (receiver : Value) (items : List Value) (args : List Value) :
    Except Error Value := do
  Arguments.between m.name 1 1 args
  let needle := args.getD 0 .nil
  match m with
  | .index =>
    match items.findIdx? fun x => x.equals needle with
    | some i => return .int (Number.ofCount i)
    | none => fail (.notAmong needle.repr receiver.typeName)
  | _ => return .int (Number.ofCount (items.countP fun x => x.equals needle))

/-- The value of a call of a method on its receiver. -/
def apply (m : Method) (receiver : Value) (args : List Value) : Except Error Value :=
  match receiver with
  | .dict es => onDict m es args
  | .str s => onStr m s args
  | .list xs | .tuple xs => onSequence m receiver xs args
  | v => fail (.noAttribute v.typeName m.name)

end TemplateEngine.Method
