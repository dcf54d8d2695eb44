import TemplateEngine.Expr.Parse
import TemplateEngine.Markup.Item
import TemplateEngine.Markup.Node

/-!
# Reading the heads of tags

The source of a tag is a name and a head behind white space.  The descriptor of the tag says which
form the head has.
-/

namespace TemplateEngine.Markup

/-- A word at the start of a text, and what stands behind it. -/
structure Words where
  first : List Char
  rest : List Char
  /-- The offset of the rest. -/
  restOffset : Nat

/-- The first word of a text that begins at an offset, and the rest between white space. -/
def Words.ofChars (cs : List Char) (offset : Nat) : Words :=
  let lead := cs.takeWhile Text.isBlank
  let body := cs.drop lead.length
  let first := body.takeWhile fun c => !Text.isBlank c
  let tail := body.drop first.length
  let gap := tail.takeWhile Text.isBlank
  { first
    rest := Text.trim tail
    restOffset := offset + Text.byteLength lead + Text.byteLength first + Text.byteLength gap }

/-- The alternatives of an `or` are separate values in the standard dialect. -/
def alternatives (mode : Mode) : Expr → List Expr
  | .binary .or left right =>
    match mode with
    | .standard => alternatives mode left ++ alternatives mode right
    | .python => [.binary .or left right]
  | e => [e]

namespace Parse
open TemplateEngine.Parse

/-- Expressions separated by commas; `n` bounds their number. -/
def exprList (mode : Mode) : Nat → Parse (List Expr)
  | 0 => do fault .tooDeep (← peek).offset
  | n + 1 => do
    let es := alternatives mode (← expr mode.grammar)
    if ← eat (.symbol .comma) then return es ++ (← exprList mode n) else return es

/-- Names separated by commas; `n` bounds their number. -/
def targets (g : Grammar) : Nat → Parse (List String)
  | 0 => do fault .tooDeep (← peek).offset
  | n + 1 => do
    let first ← identifier g
    if ← eat (.symbol .comma) then return first :: (← targets g n) else return [first]

/-- The parts behind the iterable of a loop in the standard dialect, in any order; of a repeated
one the last counts.  `n` bounds their number. -/
def loopParts (g : Grammar) : Nat → Tag.LoopHead → Parse Tag.LoopHead
  | 0, _ => do fault .tooDeep (← peek).offset
  | n + 1, head => do
    if ← eat (.name "reversed") then
      let _ ← eat (.symbol .comma)
      loopParts g n { head with reversed := true }
    else if ← eat (.name "limit") then
      expect (.symbol .colon)
      let e ← plainExpr g
      let _ ← eat (.symbol .comma)
      loopParts g n { head with limit := some e }
    else if ← eat (.name "offset") then
      expect (.symbol .colon)
      let e ← plainExpr g
      let _ ← eat (.symbol .comma)
      loopParts g n { head with offset := some e }
    else return head

/-- The head of a loop. -/
def loopHead (mode : Mode) (n : Nat) : Parse Tag.LoopHead := do
  let g := mode.grammar
  let targets ← targets g n
  expect (.name "in")
  let iterable ← expr g
  let head : Tag.LoopHead := ⟨targets, iterable, none, none, false⟩
  match mode with
  | .standard => loopParts g n head
  | .python => return head

/-- A head that is not empty, in the given form. -/
def args (mode : Mode) (n : Nat) : Tag.Start → Parse Tag.Args
  | .expr => return .expr (← expr mode.grammar)
  | .varName => return .varName (← identifier mode.grammar)
  | .exprList => return .exprList (← exprList mode n)
  | .assign => do
    let name ← identifier mode.grammar
    expect (.symbol .assign)
    return .assign name (← expr mode.grammar)
  | .forLoop => return .forLoop (← loopHead mode n)
  | .none | .raw => return .none

end Parse

/-- The head of the tag `name` in the form that it asks for; the text begins at `base`. -/
def readArgs (mode : Mode) (start : Tag.Start) (name : String) (head : List Char) (base : Nat) :
    Except Error Tag.Args :=
  match start with
  | .raw => .ok (.raw (String.ofList head))
  | .none =>
    if head.isEmpty then .ok .none
    else do
      let _ ← TokenStream.ofString (String.ofList head) base
      .error (.parse (.takesNoArguments name) base)
  | start =>
    if head.isEmpty then .error (.parse (.expectsArguments name) base)
    else (Parse.args mode (head.length + 1) start).whole (String.ofList head) base

end TemplateEngine.Markup
