import TemplateEngine.Expr.Grammar

/-!
# Reading expressions

A reader by precedence climbing over the tokens of one expression.  `Expr.parse` reads a whole
expression; the other functions also serve tags, whose heads are made of expressions, names and
words.

Every function counts down a bound on nesting.  `TokenStream.depth` is a bound that no stream
reaches: between two tokens that are consumed, at most one function per level of the grammar and
six more call one another.
-/

namespace TemplateEngine

/-- A reader: from the tokens that are left to a result and the tokens left after it. -/
abbrev Parse := StateT TokenStream (Except Error)

namespace Parse

/-! ### Single tokens -/

/-- Failure at an offset. -/
def fault {α : Type} (f : ParseFault) (offset : Nat) : Parse α := throw (.parse f offset)

/-- The next token, left where it is. -/
def peek : Parse Token := return (← get).peek

/-- The next token, consumed.  The end stays. -/
def advance : Parse Token := modifyGet fun s => (s.peek, s.tail)

/-- The next token spells this word. -/
def check (w : Word) : Parse Bool := return (← peek).lexeme == .word w

/-- The next token is consumed if it spells this word. -/
def eat (w : Word) : Parse Bool := do
  if ← check w then
    modify TokenStream.tail
    return true
  else return false

/-- Failure because the next token is not what it should be. -/
def expected {α : Type} (what : String) : Parse α := do
  let t ← peek
  fault (.expected what t.lexeme.describe) t.offset

/-- The next token has to spell this word. -/
def expect (w : Word) : Parse Unit := do
  if ← eat w then return () else expected ("'" ++ w.text ++ "'")

/-- Nothing may be left. -/
def finish : Parse Unit := do
  let t ← peek
  if t.lexeme == .stop then return () else fault (.unexpected t.lexeme.describe) t.offset

/-- A name that is not reserved. -/
def identifier (g : Grammar) : Parse String := do
  match (← peek).lexeme with
  | .word (.name s) =>
    if g.reserved.contains s then expected "an identifier"
    else
      modify TokenStream.tail
      return s
  | _ => expected "an identifier"

/-- The first of the operators that the next tokens spell, consumed. -/
def operator? : List (List Word × BinaryOp) → Parse (Option BinaryOp)
  | [] => return none
  | (words, op) :: more => do
    if (← get).startsWith words then
      modify fun s => { s with rest := s.rest.drop words.length }
      return some op
    else operator? more

/-- The first of the signs that the next token spells, consumed. -/
def sign? : List (Symbol × UnaryOp) → Parse (Option UnaryOp)
  | [] => return none
  | (s, op) :: more => do
    if ← eat (.symbol s) then return some op else sign? more

/-- The name of a filter. -/
def filterName : Parse String := do
  match (← peek).lexeme with
  | .word (.name s) =>
    modify TokenStream.tail
    return s
  | _ => expected "a filter name"

/-- The name of an attribute; a number is taken as its digits. -/
def attributeName : Parse String := do
  let t ← advance
  match t.lexeme with
  | .word (.name s) => return s
  | .int i => return Number.writeInt i.toInt
  | l => fault (.expected "an attribute name" l.describe) t.offset

/-- The number behind a minus. -/
def negativeNumber : Parse Expr := do
  let t ← advance
  match t.lexeme with
  | .int i => return .literal (.int (-i))
  | .float x => return .literal (.float x.neg)
  | l => fault (.expected "a number after '-'" l.describe) t.offset

/-- A name as an expression: a keyword, or a variable unless it is reserved. -/
def nameExpr (g : Grammar) (name : String) (offset : Nat) : Parse Expr :=
  match g.keywords.lookup name with
  | some k => return k.expr
  | none =>
    if g.reserved.contains name then fault (.unexpected name) offset else return .var name

/-! ### Expressions -/

mutual

/-- An expression and the filters that it goes through. -/
def expression (g : Grammar) : Nat → Parse Expr
  | 0 => do fault .tooDeep (← peek).offset
  | n + 1 => do filters g n (← choice g n)

/-- The filters behind a value: `| name`, `| name: a, b` or `| name(a, b)`. -/
def filters (g : Grammar) : Nat → Expr → Parse Expr
  | 0, _ => do fault .tooDeep (← peek).offset
  | n + 1, value => do
    if ← eat (.symbol .bar) then
      let name ← filterName
      filters g n (.filter value name (← arguments g n))
    else return value

/-- The arguments behind the name of a filter, if it has any. -/
def arguments (g : Grammar) : Nat → Parse (List Expr)
  | 0 => do fault .tooDeep (← peek).offset
  | n + 1 => do
    if ← eat (.symbol .colon) then choices g n
    else if ← eat (.symbol .lparen) then sequence g n .rparen
    else return []

/-- Expressions without filters, separated by commas. -/
def choices (g : Grammar) : Nat → Parse (List Expr)
  | 0 => do fault .tooDeep (← peek).offset
  | n + 1 => do
    let first ← choice g n
    if ← eat (.symbol .comma) then return first :: (← choices g n) else return [first]

/-- An expression without filters: `a`, or `a if c else b` where the grammar has it. -/
def choice (g : Grammar) : Nat → Parse Expr
  | 0 => do fault .tooDeep (← peek).offset
  | n + 1 => do
    let yes ← level g n 0
    if g.ternary && (← check (.name "if")) then
      modify TokenStream.tail
      let cond ← level g n 0
      expect (.name "else")
      return .ternary cond yes (← choice g n)
    else return yes

/-- An expression of the level `i` or a tighter one. -/
def level (g : Grammar) : Nat → Nat → Parse Expr
  | 0, _ => do fault .tooDeep (← peek).offset
  | n + 1, i =>
    match g.levels[i]? with
    | none => operand g n
    | some (.between operators) => do chain g n i operators (← level g n (i + 1))
    | some .negation => do
      if ← eat (.name "not") then return .unary .not (← level g n i) else level g n (i + 1)
    | some (.signs operators) => do
      match ← sign? operators with
      | some op => return .unary op (← level g n i)
      | none => level g n (i + 1)
    | some .power => do
      let base ← operand g n
      if ← eat (.symbol .starStar) then return .binary .pow base (← level g n (i - 1))
      else return base

/-- The operators of the level `i` behind a left operand, with their right operands. -/
def chain (g : Grammar) : Nat → Nat → List (List Word × BinaryOp) → Expr → Parse Expr
  | 0, _, _, _ => do fault .tooDeep (← peek).offset
  | n + 1, i, operators, left => do
    match ← operator? operators with
    | some op => chain g n i operators (.binary op left (← level g n (i + 1)))
    | none => return left

/-- A primary expression and the attributes, subscripts and calls behind it. -/
def operand (g : Grammar) : Nat → Parse Expr
  | 0 => do fault .tooDeep (← peek).offset
  | n + 1 => do members g n (← primary g n)

/-- The attributes, subscripts and calls behind an expression. -/
def members (g : Grammar) : Nat → Expr → Parse Expr
  | 0, _ => do fault .tooDeep (← peek).offset
  | n + 1, base => do
    if ← eat (.symbol .dot) then members g n (.attr base (← attributeName))
    else if ← eat (.symbol .lbracket) then
      let indexed ← subscript g n base
      expect (.symbol .rbracket)
      members g n indexed
    else if g.calls && (← check (.symbol .lparen)) then
      modify TokenStream.tail
      members g n (.call base (← sequence g n .rparen))
    else return base

/-- What stands between the brackets of a subscript: a key, or the bounds of a slice. -/
def subscript (g : Grammar) : Nat → Expr → Parse Expr
  | 0, _ => do fault .tooDeep (← peek).offset
  | n + 1, base => do
    let start ← if ← check (.symbol .colon) then pure none else some <$> expression g n
    if g.slices && (← check (.symbol .colon)) then
      modify TokenStream.tail
      let stop ←
        if (← check (.symbol .rbracket)) || (← check (.symbol .colon)) then pure none
        else some <$> expression g n
      let step ←
        if ← eat (.symbol .colon) then
          if ← check (.symbol .rbracket) then pure none else some <$> expression g n
        else pure none
      return .slice base start stop step
    else
      match start with
      | some key => return .index base key
      | none => expected "an index"

/-- Expressions separated by commas up to a closing symbol; a last comma may stand before it. -/
def sequence (g : Grammar) : Nat → Symbol → Parse (List Expr)
  | 0, _ => do fault .tooDeep (← peek).offset
  | n + 1, close => do
    if ← eat (.symbol close) then return []
    else
      let first ← expression g n
      if ← eat (.symbol .comma) then return first :: (← sequence g n close)
      else
        expect (.symbol close)
        return [first]

/-- A literal, a name, or an expression between brackets. -/
def primary (g : Grammar) : Nat → Parse Expr
  | 0 => do fault .tooDeep (← peek).offset
  | n + 1 => do
    let t ← advance
    match t.lexeme with
    | .int i => return .literal (.int i)
    | .float x => return .literal (.float x)
    | .str s => return .literal (.str s)
    | .word (.name s) => nameExpr g s t.offset
    | .word (.symbol .minus) =>
      if g.negativeLiterals then negativeNumber
      else fault (.unexpected t.lexeme.describe) t.offset
    | .word (.symbol .lparen) => group g n
    | .word (.symbol .lbracket) => return .list (← sequence g n .rbracket)
    | .word (.symbol .lbrace) =>
      if g.collections then braces g n else fault (.unexpected t.lexeme.describe) t.offset
    | l => fault (.unexpected l.describe) t.offset

/-- What stands behind an opening parenthesis: an expression, a tuple or a range. -/
def group (g : Grammar) : Nat → Parse Expr
  | 0 => do fault .tooDeep (← peek).offset
  | n + 1 => do
    if g.collections && (← check (.symbol .rparen)) then
      modify TokenStream.tail
      return .tuple []
    else
      let first ← expression g n
      if g.ranges && (← check (.symbol .dotDot)) then
        modify TokenStream.tail
        let last ← expression g n
        expect (.symbol .rparen)
        return .range first last
      else if g.collections && (← check (.symbol .comma)) then
        modify TokenStream.tail
        return .tuple (first :: (← sequence g n .rparen))
      else
        expect (.symbol .rparen)
        return first

/-- What stands behind an opening brace: a dict, or a set of one item or more. -/
def braces (g : Grammar) : Nat → Parse Expr
  | 0 => do fault .tooDeep (← peek).offset
  | n + 1 => do
    if ← eat (.symbol .rbrace) then return .dict []
    else
      let first ← expression g n
      if ← eat (.symbol .colon) then
        let value ← expression g n
        return .dict ((first, value) :: (← entries g n))
      else if ← eat (.symbol .comma) then return .set (first :: (← sequence g n .rbrace))
      else
        expect (.symbol .rbrace)
        return .set [first]

/-- The entries of a dict behind one of them, up to the closing brace. -/
def entries (g : Grammar) : Nat → Parse (List (Expr × Expr))
  | 0 => do fault .tooDeep (← peek).offset
  | n + 1 => do
    if ← eat (.symbol .comma) then
      if ← eat (.symbol .rbrace) then return []
      else
        let key ← expression g n
        expect (.symbol .colon)
        let value ← expression g n
        return (key, value) :: (← entries g n)
    else
      expect (.symbol .rbrace)
      return []

end

end Parse

/-- A bound on nesting that is never reached. -/
def TokenStream.depth (s : TokenStream) (g : Grammar) : Nat :=
  (g.levels.length + 7) * (s.rest.length + 2)

namespace Parse

/-- An expression with filters. -/
def expr (g : Grammar) : Parse Expr := do expression g ((← get).depth g)

/-- An expression without filters. -/
def plainExpr (g : Grammar) : Parse Expr := do choice g ((← get).depth g)

/-- The result of a reader that has to consume the whole text, which begins at `base`. -/
def whole {α : Type} (p : Parse α) (source : String) (base : Nat) : Except Error α := do
  let s ← TokenStream.ofString source base
  let (a, _) ← (do
    let a ← p
    finish
    return a : Parse α).run s
  return a

end Parse

/-- The expression that a text spells in a dialect; `base` is the offset of the text. -/
def Expr.parse (mode : Mode) (source : String) (base : Nat) : Except Error Expr :=
  (Parse.expr mode.grammar).whole source base

end TemplateEngine
