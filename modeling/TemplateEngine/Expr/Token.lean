import TemplateEngine.Error
import TemplateEngine.Number.Layout
import TemplateEngine.Number.Reading
import TemplateEngine.Text.Blank
import TemplateEngine.Text.Bytes
import TemplateEngine.Text.Letter
import TemplateEngine.Text.Quoted

/-!
# Tokens of expressions

An expression is a row of numbers, strings, names and symbols between white space.  Every token
knows its byte offset in the template.  A token is the longest one at its place, and symbols are
tried longest first.
-/

namespace TemplateEngine

/-- The symbols of the expression grammars. -/
inductive Symbol where
  | starStar | slashSlash | shl | shr | le | ge | eqEq | bangEq | ltGt | barBar | dotDot
  | plus | minus | star | slash | percent | amp | caret | tilde | lt | gt | bar
  | lparen | rparen | lbracket | rbracket | lbrace | rbrace
  | comma | colon | dot | assign
deriving DecidableEq, Repr

namespace Symbol

/-- All symbols, none before a longer one that it begins. -/
def all : List Symbol :=
  [.starStar, .slashSlash, .shl, .shr, .le, .ge, .eqEq, .bangEq, .ltGt, .barBar, .dotDot,
    .plus, .minus, .star, .slash, .percent, .amp, .caret, .tilde, .lt, .gt, .bar,
    .lparen, .rparen, .lbracket, .rbracket, .lbrace, .rbrace, .comma, .colon, .dot, .assign]

/-- The characters of a symbol. -/
def chars : Symbol → List Char
  | .starStar => ['*', '*'] | .slashSlash => ['/', '/'] | .shl => ['<', '<'] | .shr => ['>', '>']
  | .le => ['<', '='] | .ge => ['>', '='] | .eqEq => ['=', '='] | .bangEq => ['!', '=']
  | .ltGt => ['<', '>'] | .barBar => ['|', '|'] | .dotDot => ['.', '.']
  | .plus => ['+'] | .minus => ['-'] | .star => ['*'] | .slash => ['/'] | .percent => ['%']
  | .amp => ['&'] | .caret => ['^'] | .tilde => ['~'] | .lt => ['<'] | .gt => ['>'] | .bar => ['|']
  | .lparen => ['('] | .rparen => [')'] | .lbracket => ['['] | .rbracket => [']']
  | .lbrace => ['\x7b'] | .rbrace => ['\x7d'] | .comma => [','] | .colon => [':'] | .dot => ['.']
  | .assign => ['=']

/-- A symbol as it is written. -/
def text (s : Symbol) : String := String.ofList s.chars

/-- The first symbol that the text begins with. -/
def leading? (cs : List Char) : Option Symbol := all.find? fun s => s.chars.isPrefixOf cs

end Symbol

/-- What the grammars ask for by its spelling. -/
inductive Word where
  | name (s : String)
  | symbol (s : Symbol)
deriving DecidableEq, Repr

/-- A word as it is written. -/
def Word.text : Word → String
  | .name s => s
  | .symbol s => s.text

/-- The content of a token. -/
inductive Lexeme where
  | int (i : Int64)
  | float (x : Binary64)
  | str (s : String)
  | word (w : Word)
  /-- The end of the expression. -/
  | stop
deriving DecidableEq

/-- A token as messages name it. -/
def Lexeme.describe : Lexeme → String
  | .int i => Number.writeInt i.toInt
  | .float x => Layout.message.write x
  | .str s => Text.quoted s
  | .word w => w.text
  | .stop => "end of expression"

/-- A token and its byte offset in the template. -/
structure Token where
  lexeme : Lexeme
  offset : Nat
deriving DecidableEq

/-- The tokens that are left of an expression, and the offset where it stops. -/
structure TokenStream where
  rest : List Token
  stop : Nat

namespace Lexeme

/-! ### Numbers -/

/-- Digits, and low lines between them. -/
def isDigitPart (c : Char) : Bool := c.isDigit || c == '_'

/-- The fraction at the start of a text: a point and a digit, and more of them. -/
def fractionText : List Char → List Char
  | '.' :: d :: cs => if d.isDigit then '.' :: d :: cs.takeWhile isDigitPart else []
  | _ => []

/-- A plus or minus at the start of a text. -/
def signText : List Char → List Char
  | '+' :: _ => ['+']
  | '-' :: _ => ['-']
  | _ => []

/-- The exponent at the start of a text: `e`, an optional sign and a digit, and more of them. -/
def exponentText : List Char → List Char
  | e :: cs =>
    let sign := signText cs
    match cs.drop sign.length with
    | d :: ds =>
      if (e == 'e' || e == 'E') && d.isDigit then e :: sign ++ d :: ds.takeWhile isDigitPart else []
    | [] => []
  | [] => []

/-- The number at the start of a text in its three parts. -/
def numberText (cs : List Char) : List Char × List Char × List Char :=
  let whole := cs.takeWhile isDigitPart
  let rest := cs.drop whole.length
  let fraction := fractionText rest
  (whole, fraction, exponentText (rest.drop fraction.length))

/-- The number at the start of a text and how many characters it has. -/
def readNumber (offset : Nat) (cs : List Char) : Except Error (Lexeme × Nat) :=
  let (whole, fraction, exponent) := numberText cs
  let text := whole ++ fraction ++ exponent
  let digits := text.filter (· != '_')
  if fraction.isEmpty && exponent.isEmpty then
    match Number.fit? (Number.ofDigits digits) with
    | some i => .ok (.int i, text.length)
    | none => .error (.parse (.integerTooLarge (String.ofList digits)) offset)
  else .ok (.float ((Binary64.read? digits).getD (.zero false)), text.length)

/-! ### Strings -/

/-- What a backslash and this character stand for. -/
def unescape (c : Char) : List Char :=
  match c with
  | 'n' => ['\n']
  | 't' => ['\t']
  | 'r' => ['\r']
  | '0' => ['\x00']
  | '\\' => ['\\']
  | '\x27' => ['\x27']
  | '"' => ['"']
  | c => ['\\', c]

/-- The text up to the closing quote, and how many characters that and the quote take. -/
def readString? (quote : Char) : List Char → Option (List Char × Nat)
  | [] => none
  | ['\\'] => none
  | '\\' :: c :: cs => (readString? quote cs).map fun (s, n) => (unescape c ++ s, n + 2)
  | c :: cs =>
    if c == quote then some ([], 1)
    else (readString? quote cs).map fun (s, n) => (c :: s, n + 1)

/-! ### All tokens -/

/-- A quote that strings stand between. -/
def isQuote (c : Char) : Bool := c == '\x27' || c == '"'

/-- The token that begins with `c`, and how many of the characters after `c` belong to it. -/
def read (offset : Nat) (c : Char) (cs : List Char) : Except Error (Lexeme × Nat) :=
  if c.isDigit then do
    let (lexeme, n) ← readNumber offset (c :: cs)
    return (lexeme, n - 1)
  else if isQuote c then
    match readString? c cs with
    | some (s, n) => .ok (.str (String.ofList s), n)
    | none => .error (.parse .unterminatedString offset)
  else if Text.isNameStart c then
    let more := cs.takeWhile Text.isNamePart
    .ok (.word (.name (String.ofList (c :: more))), more.length)
  else
    match Symbol.leading? (c :: cs) with
    | some s => .ok (.word (.symbol s), s.chars.length - 1)
    | none => .error (.parse (.unexpectedCharacter c) offset)

end Lexeme

namespace TokenStream

/-- The tokens of a text that begins at `offset`. -/
def tokens (offset : Nat) (cs : List Char) : Except Error (List Token) :=
  match cs with
  | [] => .ok []
  | c :: cs =>
    if Text.isBlank c then tokens (offset + c.utf8Size) cs
    else do
      let (lexeme, n) ← Lexeme.read offset c cs
      let more ← tokens (offset + Text.byteLength (c :: cs.take n)) (cs.drop n)
      return ⟨lexeme, offset⟩ :: more
termination_by cs.length

/-- The tokens of an expression that begins at `base` in the template. -/
def ofString (source : String) (base : Nat) : Except Error TokenStream := do
  let cs := source.toList
  return ⟨← tokens base cs, base + Text.byteLength cs⟩

/-- The next token; behind the last one the end. -/
def peek (s : TokenStream) : Token := s.rest.headD ⟨.stop, s.stop⟩

/-- The stream behind the next token. -/
def tail (s : TokenStream) : TokenStream := { s with rest := s.rest.tail }

/-- All tokens that are left, the end included. -/
def toList (s : TokenStream) : List Token := s.rest ++ [⟨.stop, s.stop⟩]

/-- The next tokens spell these words. -/
def startsWith (s : TokenStream) (words : List Word) : Bool :=
  (words.map Lexeme.word).isPrefixOf (s.rest.map Token.lexeme)

end TokenStream

end TemplateEngine
