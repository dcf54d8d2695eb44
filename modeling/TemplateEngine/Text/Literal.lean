/-!
# String literals

A text written as a string literal of the expression language.  Single quotes are preferred;
double quotes are taken when the text holds a single quote and no double one.
-/

namespace TemplateEngine.Text

/-- The quote that a literal of this text stands between. -/
def literalQuote (cs : List Char) : Char :=
  if cs.contains '\x27' && !cs.contains '"' then '"' else '\x27'

/-- One character of a literal between two `quote`s. -/
def literalChar (quote c : Char) : List Char :=
  match c with
  | '\\' => ['\\', '\\']
  | '\n' => ['\\', 'n']
  | '\r' => ['\\', 'r']
  | '\t' => ['\\', 't']
  | c => if c == quote then ['\\', c] else [c]

/-- The literal of a text, as characters. -/
def literalChars (cs : List Char) : List Char :=
  let quote := literalQuote cs
  [quote] ++ cs.flatMap (literalChar quote) ++ [quote]

/-- The literal of a text. -/
def literal (s : String) : String := String.ofList (literalChars s.toList)

end TemplateEngine.Text
