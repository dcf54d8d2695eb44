import TemplateEngine.Markup.Head
import TemplateEngine.Tag.Registry

/-!
# Blocks

Items become a tree: an opening tag begins a block, clauses divide it, and `end` with the name of
the opening tag closes it.  The blocks that are open form a stack, each with the nodes that it has
so far; a node goes to the last clause of the innermost block.
-/

namespace TemplateEngine.Markup

/-- A block that is open. -/
structure Block where
  head : Head
  children : List Node
  clauses : List (Head × List Node)
  /-- The name of the clause behind which no other may stand, once there is one. -/
  terminated : Option String

namespace Block

/-- A block at its opening tag. -/
def ofHead (head : Head) : Block := ⟨head, [], [], none⟩

/-- The clauses with a node at the end of the last one. -/
def pushToLast (node : Node) : List (Head × List Node) → List (Head × List Node)
  | [] => []
  | [(head, nodes)] => [(head, nodes ++ [node])]
  | c :: more => c :: pushToLast node more

/-- The block with a node at its end. -/
def push (b : Block) (node : Node) : Block :=
  match b.clauses with
  | [] => { b with children := b.children ++ [node] }
  | clauses => { b with clauses := pushToLast node clauses }

/-- The block is of one of these kinds. -/
def isOneOf (b : Block) (names : List String) : Bool :=
  b.head.descriptor.names.any fun n => names.contains n

/-- The node of a closed block. -/
def node (b : Block) : Node := .tag b.head b.children b.clauses

end Block

/-- The nodes outside of all open blocks, and the open blocks, the innermost first. -/
structure Forest where
  root : List Node
  stack : List Block

namespace Forest

/-- Nothing read yet. -/
def empty : Forest := ⟨[], []⟩

/-- A node at the end of the innermost block. -/
def push (f : Forest) (node : Node) : Forest :=
  match f.stack with
  | [] => { f with root := f.root ++ [node] }
  | b :: more => { f with stack := b.push node :: more }

/-- The tag `name` stands where it has to: in the body of a block of one of the kinds. -/
def encloses (f : Forest) (inside : List String) : Bool :=
  inside.isEmpty || f.stack.any fun b => b.isOneOf inside && b.clauses.isEmpty

/-- A clause in the innermost block. -/
def addClause (f : Forest) (head : Head) : Except Error Forest :=
  match f.stack with
  | [] => .error (.parse (.outsideBlock head.name) head.offset)
  | b :: more =>
    if !b.isOneOf head.descriptor.parents then
      .error (.parse (.notAllowed head.name b.head.name) head.offset)
    else
      match b.terminated with
      | some terminal => .error (.parse (.afterTerminal terminal b.head.name) head.offset)
      | none =>
        let b := { b with
          clauses := b.clauses ++ [(head, [])]
          terminated := if head.descriptor.terminal then some head.name else none }
        .ok { f with stack := b :: more }

/-- A tag in its role. -/
def addTag (f : Forest) (head : Head) : Except Error Forest :=
  match head.descriptor.role with
  | .standalone => .ok (f.push (.tag head [] []))
  | .opener => .ok { f with stack := .ofHead head :: f.stack }
  | .clause => f.addClause head

/-- A closing tag: `closer` as it is written, for a block whose opening tag is written `opener`,
with nothing behind it. -/
def close (f : Forest) (closer opener : String) (head : List Char) (offset : Nat) :
    Except Error Forest :=
  match f.stack with
  | [] => .error (.parse (.unexpectedCloser closer) offset)
  | b :: more =>
    if b.head.name ≠ opener then .error (.parse (.mismatchedCloser b.head.name closer) offset)
    else if !head.isEmpty then .error (.parse (.takesNoArguments closer) offset)
    else .ok (push { f with stack := more } b.node)

/-- The name and the head of a tag; in python `else if c` is `elsif c`. -/
def tagWords (mode : Mode) (source : Source) : Words :=
  let words := Words.ofChars source.text source.base
  if mode = .python ∧ words.first = ['e', 'l', 's', 'e'] then
    let more := Words.ofChars words.rest words.restOffset
    if more.first = ['i', 'f'] then { more with first := ['e', 'l', 's', 'i', 'f'] } else words
  else words

/-- A tag. -/
def readTag (registry : Tag.Registry) (mode : Mode) (f : Forest) (source : Source) :
    Except Error Forest :=
  let words := tagWords mode source
  let name := String.ofList words.first
  if words.first.isEmpty then .error (.parse .emptyTag source.offset)
  else
    match registry.get? name mode with
    | none =>
      match Tag.closes? name with
      | some opener => f.close name opener words.rest source.offset
      | none => .error (.parse (.unknownTag name mode) source.offset)
    | some d => do
      if !f.encloses d.inside then .error (.parse (.outsideOf name d.inside) source.offset)
      else
        let args ← readArgs mode d.start name words.rest words.restOffset
        f.addTag ⟨name, d, args, source.offset⟩

/-- An output. -/
def readOutput (mode : Mode) (f : Forest) (source : Source) : Except Error Forest :=
  if (Text.trim source.text).isEmpty then .error (.parse .emptyOutput source.offset)
  else do
    let e ← Expr.parse mode (String.ofList source.text) source.base
    return f.push (.output e source.offset)

/-- One item more; empty texts leave no node. -/
def feed (registry : Tag.Registry) (mode : Mode) (f : Forest) : Item → Except Error Forest
  | .text [] => .ok f
  | .text cs => .ok (f.push (.text (String.ofList cs)))
  | .output source => readOutput mode f source
  | .tag source => readTag registry mode f source

/-- The tree, when no block is open. -/
def finish (f : Forest) : Except Error (List Node) :=
  match f.stack with
  | [] => .ok f.root
  | b :: _ => .error (.parse (.unclosed b.head.name) b.head.offset)

/-- The tree of some items. -/
def ofItems (registry : Tag.Registry) (mode : Mode) (items : List Item) :
    Except Error (List Node) := do
  (← items.foldlM (feed registry mode) empty).finish

end Forest

/-- The tree of a template. -/
def parse (registry : Tag.Registry) (mode : Mode) (source : String) :
    Except Error (List Node) := do
  Forest.ofItems registry mode (items (← pieces source))

end TemplateEngine.Markup
