import TemplateEngine.Error
import TemplateEngine.Text.Blank
import TemplateEngine.Text.Bytes
import TemplateEngine.Text.Search

/-!
# Pieces of a template

A template source is cut into texts, tags, outputs and comments.  A tag or an output gives its
two delimiters, the trim markers beside them and the source between; a `raw` block gives its body
as a text, and a comment, in either notation, a single piece.  Every piece but a trim marker beside
a comment is a part of the source at its byte offset, and the pieces follow one another.
-/

namespace TemplateEngine.Markup

/-- What a piece of a template is. -/
inductive PieceKind where
  | text
  | tagOpen | tagClose
  | outputOpen | outputClose
  | comment
  /-- A minus behind an opening delimiter. -/
  | trimLeft
  /-- A minus before a closing delimiter. -/
  | trimRight
  /-- What stands in a tag or an output, without trim markers. -/
  | source
deriving DecidableEq, Repr

/-- A part of a template and its byte offset. -/
structure Piece where
  kind : PieceKind
  lexeme : List Char
  offset : Nat
deriving DecidableEq

/-! ### Delimiters -/

/-- What an opening delimiter begins. -/
inductive Delimiter where
  | tag | output | comment
deriving DecidableEq, Repr

namespace Delimiter

/-- The opening delimiter at the start of a text. -/
def opening? : List Char → Option Delimiter
  | '\x7b' :: '%' :: _ => some .tag
  | '\x7b' :: '\x7b' :: _ => some .output
  | '\x7b' :: '#' :: _ => some .comment
  | _ => none

/-- The two characters that begin a construct. -/
def opener : Delimiter → List Char
  | .tag => ['\x7b', '%']
  | .output => ['\x7b', '\x7b']
  | .comment => ['\x7b', '#']

/-- The two characters that end a construct. -/
def closer : Delimiter → List Char
  | .tag => ['%', '\x7d']
  | .output => ['\x7d', '\x7d']
  | .comment => ['#', '\x7d']

/-- The kind of the piece that the opening delimiter gives. -/
def openKind : Delimiter → PieceKind
  | .tag => .tagOpen
  | .output => .outputOpen
  | .comment => .comment

/-- The kind of the piece that the closing delimiter gives. -/
def closeKind : Delimiter → PieceKind
  | .tag => .tagClose
  | .output => .outputClose
  | .comment => .comment

end Delimiter

/-- How many characters stand before the first opening delimiter. -/
def textRun : List Char → Nat
  | [] => 0
  | c :: cs => if (Delimiter.opening? (c :: cs)).isSome then 0 else textRun cs + 1

/-- How many characters stand before the first `close`, whatever they are. -/
def find? (close : List Char) : List Char → Option Nat
  | [] => none
  | c :: cs => if close.isPrefixOf (c :: cs) then some 0 else (find? close cs).map (· + 1)

/-- How many characters stand before the first `close` outside of strings and of braces that open
and close before it.  `quote` is the quote of the string that the text begins in, `depth` the
number of braces open at its start.  In a string a backslash hides the character behind it. -/
def findClose? (close : List Char) (quote : Option Char) (depth : Nat) : List Char → Option Nat
  | [] => none
  | c :: cs =>
    match quote with
    | some q =>
      if c == '\\' then
        match cs with
        | [] => none
        | _ :: cs => (findClose? close quote depth cs).map (· + 2)
      else (findClose? close (if c == q then none else quote) depth cs).map (· + 1)
    | none =>
      if depth = 0 ∧ close.isPrefixOf (c :: cs) then some 0
      else
        let next :=
          if c == '\x27' || c == '"' then findClose? close (some c) depth cs
          else if c == '\x7b' then findClose? close none (depth + 1) cs
          else if c == '\x7d' then findClose? close none (depth - 1) cs
          else findClose? close none depth cs
        next.map (· + 1)

/-! ### The inside of a construct -/

/-- What stands between two delimiters: a source, with a trim marker before and behind it or
without. -/
structure Inner where
  trimLeft : Bool
  source : List Char
  trimRight : Bool
deriving DecidableEq

namespace Inner

/-- The trim markers taken off; a single minus is a marker on the left. -/
def ofChars (cs : List Char) : Inner :=
  let trimLeft := cs.head? == some '-'
  let rest := if trimLeft then cs.tail else cs
  let trimRight := rest.getLast? == some '-'
  ⟨trimLeft, if trimRight then rest.dropLast else rest, trimRight⟩

/-- The source with its trim markers. -/
def chars (i : Inner) : List Char :=
  (if i.trimLeft then ['-'] else []) ++ i.source ++ (if i.trimRight then ['-'] else [])

/-- A trim marker at the end belongs to the source or stands behind it. -/
theorem chars_trimRight (trimLeft : Bool) (cs : List Char) :
    chars ⟨trimLeft, if cs.getLast? = some '-' then cs.dropLast else cs,
      cs.getLast? == some '-'⟩ = (if trimLeft then ['-'] else []) ++ cs := by
  by_cases h : cs.getLast? = some '-'
  · obtain ⟨front, hf⟩ := List.getLast?_eq_some_iff.1 h
    simp [chars, hf]
  · simp [chars, h]

/-- Taking the trim markers off loses nothing. -/
theorem chars_ofChars (cs : List Char) : (ofChars cs).chars = cs := by
  simp only [ofChars, beq_iff_eq, chars_trimRight]
  cases cs with
  | nil => rfl
  | cons c cs => by_cases h : c = '-' <;> simp [h]

/-- The number of bytes before the source. -/
def lead (i : Inner) : Nat := if i.trimLeft then 1 else 0

/-- The trim marker before a source, which begins at `offset` with it. -/
def leftMarker (i : Inner) (offset : Nat) : List Piece :=
  if i.trimLeft then [⟨.trimLeft, ['-'], offset⟩] else []

/-- The trim marker behind a source that begins at `offset` with the marker before it. -/
def rightMarker (i : Inner) (offset : Nat) : List Piece :=
  if i.trimRight then [⟨.trimRight, ['-'], offset + i.lead + Text.byteLength i.source⟩] else []

end Inner

/-! ### Constructs -/

/-- The pieces of a construct that begins at an offset, and how many characters it has. -/
structure Construct where
  pieces : List Piece
  length : Nat

/-- A comment; a minus at either end of it is also a trim marker. -/
def readComment (offset : Nat) (cs : List Char) : Except Error Construct :=
  match find? Delimiter.comment.closer (cs.drop 2) with
  | none => .error (.parse .unterminatedComment offset)
  | some n =>
    let body := (cs.drop 2).take n
    let left := if body.head? == some '-' then [⟨.trimLeft, ['-'], offset + 2⟩] else []
    let right :=
      if 1 < body.length ∧ body.getLast? = some '-' then
        [⟨.trimRight, ['-'], offset + 1 + Text.byteLength body⟩]
      else []
    .ok ⟨left ++ ⟨.comment, cs.take (n + 4), offset⟩ :: right, n + 4⟩

/-- The text between the delimiters of a tag or an output that begins at `offset`. -/
def readInner (d : Delimiter) (offset : Nat) (cs : List Char) : Except Error (List Char) :=
  match findClose? d.closer none 0 (cs.drop 2) with
  | none =>
    .error (.parse (.unterminated (String.ofList d.opener) (String.ofList d.closer)) offset)
  | some n => .ok ((cs.drop 2).take n)

/-- A tag or an output with its inside. -/
def delimited (d : Delimiter) (offset : Nat) (raw : List Char) : Construct :=
  let i := Inner.ofChars raw
  let start := offset + 2
  let pieces :=
    ⟨d.openKind, d.opener, offset⟩ :: i.leftMarker start ++
    ⟨.source, i.source, start + i.lead⟩ :: i.rightMarker start ++
    [⟨d.closeKind, d.closer, start + Text.byteLength raw⟩]
  ⟨pieces, raw.length + 4⟩

/-! ### Verbatim blocks -/

/-- The blocks whose bodies are not read. -/
inductive Verbatim where
  | raw | comment
deriving DecidableEq, Repr

/-- The name of the opening tag of a verbatim block. -/
def Verbatim.name : Verbatim → String
  | .raw => "raw"
  | .comment => "comment"

/-- The verbatim block whose opening tag has this source. -/
def Verbatim.ofSource? (source : List Char) : Option Verbatim :=
  let name := String.ofList (Text.trim source)
  if name = "raw" then some .raw else if name = "comment" then some .comment else none

/-- The closing tag `name` at the start of a text: what stands between its delimiters. -/
def closingTag? (name : List Char) : List Char → Option (List Char)
  | '\x7b' :: '%' :: cs =>
    let left := if cs.head? == some '-' then ['-'] else []
    let lead := (cs.drop left.length).takeWhile Text.isBlank
    match Text.dropPart? name (cs.drop (left.length + lead.length)) with
    | none => none
    | some rest =>
      let trail := rest.takeWhile Text.isBlank
      match rest.drop trail.length with
      | '-' :: '%' :: '\x7d' :: _ => some (left ++ lead ++ name ++ trail ++ ['-'])
      | '%' :: '\x7d' :: _ => some (left ++ lead ++ name ++ trail)
      | _ => none
  | _ => none

/-- The first closing tag `name` in a text: how many characters stand before it, and what stands
between its delimiters. -/
def findClosingTag? (name : List Char) : List Char → Option (Nat × List Char)
  | [] => none
  | c :: cs =>
    match closingTag? name (c :: cs) with
    | some inner => some (0, inner)
    | none => (findClosingTag? name cs).map fun (n, inner) => (n + 1, inner)

/-- A verbatim block that begins at `offset`; `raw` stands between the delimiters of its opening
tag and `cs` is the whole text from there on. -/
def readVerbatim (v : Verbatim) (offset : Nat) (raw cs : List Char) : Except Error Construct :=
  let behind := cs.drop (raw.length + 4)
  match findClosingTag? ("end" ++ v.name).toList behind with
  | none => .error (.parse (.unterminatedBlock v.name) offset)
  | some (n, closing) =>
    let first := Inner.ofChars raw
    let last := Inner.ofChars closing
    let start := offset + 4 + Text.byteLength raw
    let body := behind.take n
    let stop := start + Text.byteLength body
    let length := raw.length + n + closing.length + 8
    let middle :=
      match v with
      | .raw =>
        first.rightMarker (offset + 2) ++ ⟨.text, body, start⟩ :: last.leftMarker (stop + 2)
      | .comment => [⟨.comment, cs.take length, offset⟩]
    .ok ⟨first.leftMarker (offset + 2) ++ middle ++ last.rightMarker (stop + 2), length⟩

/-- The construct that a text begins with. -/
def readConstruct (d : Delimiter) (offset : Nat) (cs : List Char) : Except Error Construct :=
  match d with
  | .comment => readComment offset cs
  | .output => (readInner .output offset cs).map (delimited .output offset)
  | .tag => do
    let raw ← readInner .tag offset cs
    match Verbatim.ofSource? (Inner.ofChars raw).source with
    | some v => readVerbatim v offset raw cs
    | none => return delimited .tag offset raw

/-- The pieces of a text that begins at an offset. -/
def piecesFrom (offset : Nat) (cs : List Char) : Except Error (List Piece) :=
  match cs with
  | [] => .ok []
  | c :: rest =>
    match Delimiter.opening? (c :: rest) with
    | none => do
      let n := textRun rest
      let text := c :: rest.take n
      let more ← piecesFrom (offset + Text.byteLength text) (rest.drop n)
      return ⟨.text, text, offset⟩ :: more
    | some d => do
      let k ← readConstruct d offset (c :: rest)
      let text := (c :: rest).take k.length
      let more ← piecesFrom (offset + Text.byteLength text) (rest.drop (k.length - 1))
      return k.pieces ++ more
termination_by cs.length

/-- The pieces of a template. -/
def pieces (source : String) : Except Error (List Piece) := piecesFrom 0 source.toList

end TemplateEngine.Markup
