import TemplateEngine.Text.CaseTable

/-!
# Upper and lower case

The full case mappings: a character may become several, and the Greek capital sigma becomes its
final form at the end of a word.
-/

namespace TemplateEngine.Text

/-- The character that the first run holding `c` moves it to. -/
def shiftCase (runs : List CaseRun) (c : Char) : Char :=
  let n := c.toNat
  match runs.find? fun r => r.first ≤ n && n ≤ r.last && (n - r.first) % r.step == 0 with
  | some r => Char.ofNat (n + r.shift).toNat
  | none => c

/-- The mapping of one character: an expansion where there is one, else a shift. -/
def mapCase (expansions : List (Nat × List Nat)) (runs : List CaseRun) (c : Char) : List Char :=
  match expansions.lookup c.toNat with
  | some codes => codes.map Char.ofNat
  | none => [shiftCase runs c]

/-- The upper case of one character. -/
def upperOf (c : Char) : List Char :=
  if c.toNat < 128 then [c.toUpper] else mapCase upperExpansions upperRuns c

/-- The lower case of one character, wherever it stands. -/
def lowerOf (c : Char) : List Char :=
  if c.toNat < 128 then [c.toLower] else mapCase lowerExpansions lowerRuns c

/-- Letters that have case, or look as if they had. -/
def isCased (c : Char) : Bool := inTable casedTable c.toNat

/-- Marks and signs that do not count when the end of a word is looked for. -/
def isCaseIgnorable (c : Char) : Bool := inTable caseIgnorableTable c.toNat

/-- The first character that counts is a cased one. -/
def casedNext (cs : List Char) : Bool :=
  match cs.dropWhile isCaseIgnorable with
  | [] => false
  | c :: _ => isCased c

/-- Lower case from a place in a text; `afterCased` says whether the last character before it
that counts is a cased one. -/
def lowerFrom (afterCased : Bool) : List Char → List Char
  | [] => []
  | c :: cs =>
    let lowered :=
      if c == 'Σ' then [if afterCased && !casedNext cs then 'ς' else 'σ'] else lowerOf c
    lowered ++ lowerFrom (if isCaseIgnorable c then afterCased else isCased c) cs

/-- The upper case of a text. -/
def upper (cs : List Char) : List Char := cs.flatMap upperOf

/-- The lower case of a text. -/
def lower (cs : List Char) : List Char := lowerFrom false cs

/-- The text with its first character in upper case and the rest as it is. -/
def capitalize : List Char → List Char
  | [] => []
  | c :: cs => upperOf c ++ cs

end TemplateEngine.Text
