import TemplateEngine.Tag.Descriptor

/-!
# Templates as trees

A template is a list of nodes.  A tag has the nodes of its body and its clauses, and a clause has
nodes but no clauses of its own.
-/

namespace TemplateEngine.Markup

/-- A tag or a clause as it is written: its name, what the registry says of it, its head, and the
offset of its opening delimiter. -/
structure Head where
  name : String
  descriptor : Tag.Descriptor
  args : Tag.Args
  offset : Nat

/-- A text, an output or a tag. -/
inductive Node where
  | text (s : String)
  | output (e : Expr) (offset : Nat)
  | tag (head : Head) (children : List Node) (clauses : List (Head × List Node))

end TemplateEngine.Markup
