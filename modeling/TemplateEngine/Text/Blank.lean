/-!
# White space

The characters with the property `White_Space`, and texts without them at either end.
-/

namespace TemplateEngine.Text

/-- White space of every script: the ASCII controls from tab to carriage return, the space, and
the separators and spaces of the other blocks. -/
def isBlank (c : Char) : Bool :=
  let n := c.toNat
  (9 ≤ n && n ≤ 13) || n == 0x20 || n == 0x85 || n == 0xA0 || n == 0x1680 ||
    (0x2000 ≤ n && n ≤ 0x200A) || n == 0x2028 || n == 0x2029 || n == 0x202F || n == 0x205F ||
    n == 0x3000

/-- The text without the longest run of characters of `p` at its end. -/
def dropTrailing (p : Char → Bool) (cs : List Char) : List Char :=
  (cs.reverse.dropWhile p).reverse

/-- The text without white space at its start. -/
def trimStart (cs : List Char) : List Char := cs.dropWhile isBlank

/-- The text without white space at its end. -/
def trimEnd (cs : List Char) : List Char := dropTrailing isBlank cs

/-- The text without white space at either end. -/
def trim (cs : List Char) : List Char := trimEnd (trimStart cs)

theorem trimStart_length_le (cs : List Char) : (trimStart cs).length ≤ cs.length :=
  (List.dropWhile_suffix isBlank).length_le

end TemplateEngine.Text
