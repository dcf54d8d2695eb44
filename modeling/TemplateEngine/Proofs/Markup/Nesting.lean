import Mathlib.Data.List.Forall2
import TemplateEngine.Markup.Block

/-!
# Well-nested trees and the marks they are written with

A template is read item by item, and every item but an empty text is read as one *mark*: a text, an
output, the head of a tag, or the closing of a block (`ReadsAs`).  A tree is written as the row of
its marks: a tag that stands alone is its head; a block is its head, its body, its clauses and the
closing tag that repeats its name (`marksOf`).

A tree is well nested when every tag stands where its descriptor lets it stand (`AllWellNested`).
The openers whose *bodies* a tag stands in count for that; the clauses of a block are not part of
its body.
-/

namespace TemplateEngine.Markup

/-! ### Marks -/

/-- What an item is read as.  A closing tag names the block that it closes. -/
inductive Mark where
  | text (s : String)
  | output (e : Expr) (offset : Nat)
  | head (h : Head)
  | closer (name : String)

mutual

/-- The marks of a node. -/
def Node.marks : Node → List Mark
  | .text s => [.text s]
  | .output e offset => [.output e offset]
  | .tag h children clauses =>
    match h.descriptor.role with
    | .opener => .head h :: (marksOf children ++ (clauseMarks clauses ++ [.closer h.name]))
    | .clause | .standalone => [.head h]

/-- The marks of a row of nodes. -/
def marksOf : List Node → List Mark
  | [] => []
  | node :: nodes => node.marks ++ marksOf nodes

/-- The marks of the clauses of a block. -/
def clauseMarks : List (Head × List Node) → List Mark
  | [] => []
  | (h, nodes) :: more => .head h :: (marksOf nodes ++ clauseMarks more)

end

@[simp] theorem marksOf_append (xs ys : List Node) :
    marksOf (xs ++ ys) = marksOf xs ++ marksOf ys := by
  induction xs with
  | nil => rfl
  | cons x xs ih => simp [marksOf, ih]

@[simp] theorem clauseMarks_append (xs ys : List (Head × List Node)) :
    clauseMarks (xs ++ ys) = clauseMarks xs ++ clauseMarks ys := by
  induction xs with
  | nil => rfl
  | cons x xs ih => simp [clauseMarks, ih]

/-! ### Well-nested trees -/

/-- The tag is one of these kinds. -/
def Head.IsOneOf (h : Head) (names : List String) : Prop := ∃ n ∈ h.descriptor.names, n ∈ names

/-- One of the bodies that hold the tag is of a kind that the tag asks for, if it asks for any. -/
def Head.Placed (h : Head) (bodies : List Head) : Prop :=
  h.descriptor.inside = [] ∨ ∃ b ∈ bodies, b.IsOneOf h.descriptor.inside

/-- The tag is a clause that a block of this kind can have. -/
def Head.Divides (h block : Head) : Prop :=
  h.descriptor.role = .clause ∧ block.IsOneOf h.descriptor.parents

mutual

/-- A node that stands in these bodies is well nested. -/
def Node.WellNested (bodies : List Head) : Node → Prop
  | .text _ => True
  | .output _ _ => True
  | .tag h children clauses =>
    h.Placed bodies ∧
      match h.descriptor.role with
      | .standalone => children = [] ∧ clauses = []
      | .opener => AllWellNested (h :: bodies) children ∧ ClausesWellNested bodies h clauses
      | .clause => False

/-- All nodes of a row that stands in these bodies are well nested. -/
def AllWellNested (bodies : List Head) : List Node → Prop
  | [] => True
  | node :: nodes => node.WellNested bodies ∧ AllWellNested bodies nodes

/-- The clauses of a block that stands in these bodies are well nested; nothing follows a terminal
one. -/
def ClausesWellNested (bodies : List Head) (block : Head) : List (Head × List Node) → Prop
  | [] => True
  | (h, nodes) :: more =>
    h.Divides block ∧ (h.descriptor.terminal = true → more = []) ∧ AllWellNested bodies nodes ∧
      ClausesWellNested bodies block more

end

@[simp] theorem allWellNested_append {bodies : List Head} {xs ys : List Node} :
    AllWellNested bodies (xs ++ ys) ↔ AllWellNested bodies xs ∧ AllWellNested bodies ys := by
  induction xs with
  | nil => simp [AllWellNested]
  | cons x xs ih => simp [AllWellNested, ih, and_assoc]

/-- One clause more, behind clauses that are not terminal. -/
theorem ClausesWellNested.concat {bodies : List Head} {block h : Head} {nodes : List Node}
    {clauses : List (Head × List Node)} (hc : ClausesWellNested bodies block clauses)
    (ht : ∀ c ∈ clauses, c.1.descriptor.terminal = false) (hd : h.Divides block)
    (hn : AllWellNested bodies nodes) :
    ClausesWellNested bodies block (clauses ++ [(h, nodes)]) := by
  induction clauses with
  | nil => exact ⟨hd, fun _ => rfl, hn, trivial⟩
  | cons c clauses ih =>
    obtain ⟨h₁, -, h₃, h₄⟩ := hc
    have hct : c.1.descriptor.terminal = false := ht c (by simp)
    exact ⟨h₁, fun h => by simp [hct] at h, h₃, ih h₄ fun d hd => ht d (by simp [hd])⟩

/-! ### Reading an item -/

/-- The words of a tag.  In python `else if c` is `elsif c`. -/
inductive TagWords (mode : Mode) (cs : List Char) (base : Nat) : Words → Prop where
  | plain {w : Words} (hw : Words.ofChars cs base = w)
      (h : mode = .python → w.first = "else".toList →
        (Words.ofChars w.rest w.restOffset).first ≠ "if".toList) : TagWords mode cs base w
  | elseIf {w v : Words} (hm : mode = .python) (hw : Words.ofChars cs base = w)
      (hf : w.first = "else".toList) (hv : Words.ofChars w.rest w.restOffset = v)
      (hi : v.first = "if".toList) :
      TagWords mode cs base { v with first := "elsif".toList }

theorem tagWords_iff {mode : Mode} {source : Source} {w : Words} :
    TagWords mode source.text source.base w ↔ Forest.tagWords mode source = w := by
  unfold Forest.tagWords
  constructor
  · rintro (⟨rfl, h⟩ | ⟨rfl, rfl, hf, rfl, hi⟩)
    · dsimp only
      split
      · next hc => exact if_neg (h hc.1 hc.2)
      · rfl
    · dsimp only
      rw [if_pos ⟨rfl, hf⟩]
      exact if_pos hi
  · rintro rfl
    dsimp only
    split
    · next hc =>
      split
      · next hi => exact .elseIf hc.1 rfl hc.2 rfl hi
      · next hi => exact .plain rfl fun _ _ => hi
    · next hc => exact .plain rfl fun hm hf => absurd ⟨hm, hf⟩ hc

/-- The item is read as the mark: an output or a head by what it parses to, the head in the form
that the descriptor found in the registry asks for. -/
inductive ReadsAs (registry : Tag.Registry) (mode : Mode) : Item → Mark → Prop where
  | text (cs : List Char) : ReadsAs registry mode (.text cs) (.text (String.ofList cs))
  | output {source : Source} {e : Expr}
      (he : Expr.parse mode (String.ofList source.text) source.base = .ok e) :
      ReadsAs registry mode (.output source) (.output e source.offset)
  | head {source : Source} {w : Words} {d : Tag.Descriptor} {args : Tag.Args}
      (hw : TagWords mode source.text source.base w)
      (hd : registry.get? (String.ofList w.first) mode = some d)
      (ha : readArgs mode d.start (String.ofList w.first) w.rest w.restOffset = .ok args) :
      ReadsAs registry mode (.tag source) (.head ⟨String.ofList w.first, d, args, source.offset⟩)
  | closer {source : Source} {w : Words} {name : String}
      (hw : TagWords mode source.text source.base w)
      (hn : String.ofList w.first = "end" ++ name) (hr : w.rest = []) :
      ReadsAs registry mode (.tag source) (.closer name)

/-- The items are read as the marks, one by one; empty texts are left out. -/
def Reads (registry : Tag.Registry) (mode : Mode) (items : List Item) (marks : List Mark) : Prop :=
  List.Forall₂ (ReadsAs registry mode) (items.filter fun item => item ≠ .text []) marks

/-- An empty text is left out. -/
theorem reads_cons_nil_iff {registry : Tag.Registry} {mode : Mode} {items : List Item}
    {marks : List Mark} :
    Reads registry mode (.text [] :: items) marks ↔ Reads registry mode items marks := Iff.rfl

theorem reads_cons_iff {registry : Tag.Registry} {mode : Mode} {item : Item} {items : List Item}
    {marks : List Mark} (hi : item ≠ .text []) :
    Reads registry mode (item :: items) marks ↔ ∃ m ms, ReadsAs registry mode item m ∧
      Reads registry mode items ms ∧ marks = m :: ms := by
  simp only [Reads, List.filter_cons, decide_eq_true hi, if_true, List.forall₂_cons_left_iff]

/-- Two rows of items are read one behind the other. -/
theorem reads_append_iff {registry : Tag.Registry} {mode : Mode} {xs ys : List Item}
    {marks : List Mark} :
    Reads registry mode (xs ++ ys) marks ↔
      ∃ before after, marks = before ++ after ∧ Reads registry mode xs before ∧
        Reads registry mode ys after := by
  rw [Reads, List.filter_append]
  constructor
  · intro h
    exact ⟨_, _, (List.take_append_drop _ _).symm, (List.forall₂_take_append _ _ _ h.flip).flip,
      (List.forall₂_drop_append _ _ _ h.flip).flip⟩
  · rintro ⟨before, after, rfl, hx, hy⟩
    exact List.rel_append hx hy

/-- The descriptor of a head is the one that the registry has. -/
theorem ReadsAs.get?_of_head {registry : Tag.Registry} {mode : Mode} {item : Item} {h : Head}
    (hr : ReadsAs registry mode item (.head h)) :
    ∃ name, registry.get? name mode = some h.descriptor := by
  cases hr with
  | head hw hd ha => exact ⟨_, hd⟩

/-- Every mark is what one of the items is read as. -/
theorem Reads.exists_of_mem {registry : Tag.Registry} {mode : Mode} {items : List Item}
    {marks : List Mark} (hm : Reads registry mode items marks) {mark : Mark} (hh : mark ∈ marks) :
    ∃ item ∈ items, ReadsAs registry mode item mark := by
  obtain ⟨i, hi, he⟩ := List.getElem_of_mem hh
  have hr := (List.forall₂_iff_get.mp hm).2 i (hm.length_eq ▸ hi) hi
  rw [List.get_eq_getElem, List.get_eq_getElem, he] at hr
  exact ⟨_, List.mem_of_mem_filter (List.getElem_mem _), hr⟩

theorem Reads.get?_of_mem {registry : Tag.Registry} {mode : Mode} {items : List Item}
    {marks : List Mark} (hm : Reads registry mode items marks) {h : Head} (hh : .head h ∈ marks) :
    ∃ name, registry.get? name mode = some h.descriptor := by
  obtain ⟨item, -, hr⟩ := hm.exists_of_mem hh
  exact hr.get?_of_head

end TemplateEngine.Markup
