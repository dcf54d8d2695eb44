/-!
# Boundary tables

A set of code points as the sorted list of the points at which membership changes, beginning
outside.  A code point belongs to the set when an odd number of boundaries lie at or below it.
-/

namespace TemplateEngine.Text

/-- The set with these boundaries holds `n`. -/
def inTable (boundaries : List Nat) (n : Nat) : Bool :=
  (boundaries.takeWhile (· ≤ n)).length % 2 == 1

end TemplateEngine.Text
