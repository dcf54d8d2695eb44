import TemplateEngine.Text.PrintableTable

/-!
# Quoted texts in messages

A text between double quotes as error messages and descriptions show it: quotes and backslashes
are escaped, and what has no printed form of its own is written by its code.
-/

namespace TemplateEngine.Text

/-- The character joins the one before it and takes no room of its own.  The two halfwidth sound
marks of Katakana extend a letter too, and yet stand in a cell of their own. -/
def attaches (c : Char) : Bool :=
  inTable graphemeExtendTable c.toNat && c != '\uff9e' && c != '\uff9f'

/-- The character has a printed form that does not attach to its neighbour. -/
def isShown (c : Char) : Bool :=
  if c.toNat < 128 then 0x20 ≤ c.toNat && c.toNat < 0x7f
  else inTable printableTable c.toNat && !inTable defaultIgnorableTable c.toNat && !attaches c

/-- A character by its code in hexadecimal. -/
def codeEscape (c : Char) : List Char :=
  ['\\', 'u', '\x7b'] ++ Nat.toDigits 16 c.toNat ++ ['\x7d']

/-- One character of a quoted text. -/
def quoteChar (c : Char) : List Char :=
  match c with
  | '\\' => ['\\', '\\']
  | '"' => ['\\', '"']
  | '\n' => ['\\', 'n']
  | '\r' => ['\\', 'r']
  | '\t' => ['\\', 't']
  | '\x00' => ['\\', '0']
  | c => if isShown c then [c] else codeEscape c

/-- A text between double quotes. -/
def quoted (s : String) : String :=
  String.ofList (['"'] ++ s.toList.flatMap quoteChar ++ ['"'])

end TemplateEngine.Text
