import TemplateEngine.Markup.Piece

/-!
# Items of a template

Texts, tags and outputs in order, with the trim markers applied: a marker on the left strips the
end of the text before it and a marker on the right the start of the text behind it, as long as
nothing but comments lies between.
-/

namespace TemplateEngine.Markup

/-- The source of a tag or an output: where its opening delimiter is, and where it starts. -/
structure Source where
  text : List Char
  offset : Nat
  base : Nat
deriving DecidableEq

/-- A text, a tag or an output. -/
inductive Item where
  | text (cs : List Char)
  | tag (source : Source)
  | output (source : Source)
deriving DecidableEq

/-- The items found so far, the last one first, and what the pieces behind them mean. -/
structure Trimming where
  items : List Item
  /-- The next text loses the white space at its start. -/
  stripNext : Bool
  /-- The next source is that of an output. -/
  inOutput : Bool
  /-- The offset of the last opening delimiter. -/
  opened : Nat

namespace Trimming

/-- The items with the end of the last one stripped, if it is a text. -/
def stripLast : List Item → List Item
  | .text cs :: items => .text (Text.trimEnd cs) :: items
  | items => items

/-- One piece more. -/
def step (t : Trimming) (p : Piece) : Trimming :=
  match p.kind with
  | .text =>
    let cs := if t.stripNext then Text.trimStart p.lexeme else p.lexeme
    { t with items := .text cs :: t.items, stripNext := false }
  | .trimLeft => { t with items := stripLast t.items }
  | .trimRight => { t with stripNext := true }
  | .tagOpen => { t with inOutput := false, opened := p.offset }
  | .outputOpen => { t with inOutput := true, opened := p.offset }
  | .source =>
    let source : Source := ⟨p.lexeme, t.opened, p.offset⟩
    let item := if t.inOutput then Item.output source else .tag source
    { t with items := item :: t.items, stripNext := false }
  | .tagClose | .outputClose | .comment => t

end Trimming

/-- The items of the pieces of a template. -/
def items (pieces : List Piece) : List Item :=
  (pieces.foldl Trimming.step ⟨[], false, false, 0⟩).items.reverse

end TemplateEngine.Markup
