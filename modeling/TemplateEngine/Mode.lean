/-!
# Dialects

A template is written in one of two dialects.  They share the markup and differ in the grammar of
expressions, in what counts as true, in how values are printed and in the tags that exist.
-/

namespace TemplateEngine

/-- The dialect of a template. -/
inductive Mode where
  /-- Liquid expressions: comparisons, ranges and filters. -/
  | standard
  /-- Python expressions: the full operator table, collection literals, slices and calls. -/
  | python
deriving DecidableEq, Repr

/-- The name of a dialect. -/
def Mode.name : Mode → String
  | .standard => "standard"
  | .python => "python"

end TemplateEngine
