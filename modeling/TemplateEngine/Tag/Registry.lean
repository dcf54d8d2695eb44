import TemplateEngine.Tag.Descriptor
import TemplateEngine.Text.Letter
import TemplateEngine.Text.Search

/-!
# Registries of tags

The tags of both dialects by name.  A registry starts with the built-in tags; a registration puts
one descriptor under each of its names, and a removal takes one name away.  A change that is
refused changes nothing.
-/

namespace TemplateEngine.Tag

/-- The tags of both dialects; the first entry of a name counts. -/
structure Registry where
  entries : List ((Mode × String) × Descriptor)

/-- The names in a list separated by commas, without blanks around them and without empty ones. -/
def splitNames (names : String) : List String :=
  let parts := (Text.splitOn ',' [] names.toList).map fun p => String.ofList (Text.trim p)
  parts.filter fun n => !n.isEmpty

theorem splitNames_append (a b : String) :
    splitNames (a ++ "," ++ b) = splitNames a ++ splitNames b := by
  have htext : (a ++ "," ++ b).toList = a.toList ++ ',' :: b.toList := by simp
  simp only [splitNames, htext, Text.splitOn_append_cons, List.map_append, List.filter_append]

/-- Between two commas stands one name, or none if there is white space only. -/
theorem splitNames_of_not_mem {names : String} (h : ',' ∉ names.toList) :
    splitNames names =
      if (Text.trim names.toList).isEmpty then [] else [String.ofList (Text.trim names.toList)] := by
  simp only [splitNames, Text.splitOn_of_not_mem h, List.map_singleton, List.filter_cons,
    List.filter_nil]
  cases Text.trim names.toList <;> simp

/-- A name that a tag can have. -/
def isTagName (name : String) : Bool :=
  match name.toList with
  | [] => false
  | c :: cs => Text.isNameStart c && cs.all Text.isNamePart

/-- What stands behind `end` in the name of a closing tag. -/
def closes? (name : String) : Option String :=
  (Text.dropPart? ['e', 'n', 'd'] name.toList).map String.ofList

namespace Registry

/-- No tags. -/
def empty : Registry := ⟨[]⟩

/-- The descriptor of a name in a dialect. -/
def get? (r : Registry) (name : String) (mode : Mode) : Option Descriptor :=
  r.entries.lookup (mode, name)

/-- The registry without a name. -/
def erase (r : Registry) (name : String) (mode : Mode) : Registry :=
  ⟨r.entries.filter fun entry => entry.1 != (mode, name)⟩

/-- The registry with a name standing for a descriptor. -/
def insert (r : Registry) (name : String) (mode : Mode) (d : Descriptor) : Registry :=
  ⟨((mode, name), d) :: (r.erase name mode).entries⟩

/-- The registry with every name of a list standing for a descriptor that lists them. -/
def insertAll (r : Registry) (names : List String) (mode : Mode) (d : Descriptor) : Registry :=
  names.foldl (fun r name => r.insert name mode { d with names, mode }) r

/-- Why names cannot be registered. -/
def refusal? (names : List String) : Option RegistryFault :=
  if names.isEmpty then some .noName
  else
    match names.find? fun n => !isTagName n with
    | some n => some (.invalidName n)
    | none => (names.find? fun n => (closes? n).isSome).map .reservedName

/-- Puts a tag under the names of a list separated by commas, in place of any others; gives the
registry and the descriptor as it is registered. -/
def register (r : Registry) (names : String) (mode : Mode) (d : Descriptor) :
    Except Error (Registry × Descriptor) :=
  let list := splitNames names
  match refusal? list with
  | some fault => .error (.registry fault)
  | none =>
    let d := { d with names := list, mode, isProtected := false }
    .ok (r.insertAll list mode d, d)

/-- Takes a name away; gives the registry and the descriptor that the name stood for. -/
def unregister (r : Registry) (name : String) (mode : Mode) :
    Except Error (Registry × Descriptor) :=
  match r.get? name mode with
  | none => .error (.registry (.notRegistered name mode))
  | some d =>
    if d.isProtected then .error (.registry (.protectedTag name mode))
    else .ok (r.erase name mode, d)

/-! ### Built-in tags -/

/-- The built-in tags of a dialect, each with its names. -/
def builtins (mode : Mode) : List (List String × Descriptor) :=
  let loops := ["for", "while"]
  let elsif := match mode with
    | .standard => ["elsif"]
    | .python => ["elsif", "elif"]
  [(["if"], { Descriptor.ofBehavior (.condition false) with start := .expr }),
    (["unless"], { Descriptor.ofBehavior (.condition true) with start := .expr }),
    (elsif,
      { Descriptor.ofBehavior .clause with start := .expr, parents := ["if", "unless"] }),
    (["else"],
      { Descriptor.ofBehavior .clause with
        parents := ["if", "unless", "case", "for", "while"], terminal := true }),
    (["case"], { Descriptor.ofBehavior .choice with start := .expr }),
    (["when"], { Descriptor.ofBehavior .clause with start := .exprList, parents := ["case"] }),
    (["for"], { Descriptor.ofBehavior .forLoop with start := .forLoop }),
    (["while"], { Descriptor.ofBehavior .whileLoop with start := .expr }),
    (["break"],
      { Descriptor.ofBehavior (.control .breakLoop) with void := true, inside := loops }),
    (["continue"],
      { Descriptor.ofBehavior (.control .nextTurn) with void := true, inside := loops }),
    (["assign"], { Descriptor.ofBehavior .assign with void := true, start := .assign }),
    (["capture"], { Descriptor.ofBehavior .capture with start := .varName }),
    (["echo", "print"], { Descriptor.ofBehavior .echo with void := true, start := .expr }),
    (["increment"],
      { Descriptor.ofBehavior (.counter 1) with void := true, start := .varName }),
    (["decrement"],
      { Descriptor.ofBehavior (.counter (-1)) with void := true, start := .varName })]

/-- The registry with the built-in tags of a dialect, which are protected. -/
def install (r : Registry) (mode : Mode) : Registry :=
  (builtins mode).foldl
    (fun r (names, d) => r.insertAll names mode { d with isProtected := true }) r

/-- The registry with the built-in tags of both dialects. -/
def standard : Registry := (empty.install .standard).install .python

end Registry

end TemplateEngine.Tag
