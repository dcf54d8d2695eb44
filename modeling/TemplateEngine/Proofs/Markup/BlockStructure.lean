import TemplateEngine.Proofs.Expr.Tokens
import TemplateEngine.Proofs.Markup.Nesting
import TemplateEngine.Proofs.Tag.Reachable

/-!
# The block structure of templates

The reader of templates keeps a stack of open blocks.  What an item does to it depends only on the
mark that the item is read as: `Forest.feed_eq_ok_iff` says that one item is a `Step` for its mark,
and `Forest.foldlM_feed_eq_ok_iff` that a list of items is a run of such steps.

A stack stands for a tree that is not finished yet.  `Forest.marks` are the marks read so far and
`Forest.WellNested` is the invariant: what is finished is well nested, and every open block is well
nested up to where it ends.  Steps keep both (`Step.marks`, `Step.wellNested`).  In the other
direction the marks of a well-nested row of nodes run from every stack whose bodies they fit
(`runs_marksOf`).  So the reader accepts exactly the rows of marks of well-nested trees
(`runs_empty_iff`), and `Forest.ofItems_eq_ok_iff` says it of the items.
-/

namespace TemplateEngine.Markup

namespace Block

/-! ### Open blocks -/

/-- The marks of a block up to where it ends. -/
def marks (b : Block) : List Mark := .head b.head :: (marksOf b.children ++ clauseMarks b.clauses)

/-- The block is well nested up to where it ends, in these bodies. -/
structure WellNested (bodies : List Head) (b : Block) : Prop where
  opener : b.head.descriptor.role = .opener
  placed : b.head.Placed bodies
  children : AllWellNested (b.head :: bodies) b.children
  clauses : ClausesWellNested bodies b.head b.clauses
  /-- Another clause may come as long as none of them is terminal. -/
  terminated : b.terminated = none → ∀ c ∈ b.clauses, c.1.descriptor.terminal = false

theorem isOneOf_iff {b : Block} {names : List String} :
    b.isOneOf names = true ↔ b.head.IsOneOf names := by
  simp [isOneOf, Head.IsOneOf]

theorem pushToLast_concat (node : Node) (clauses : List (Head × List Node)) (h : Head)
    (nodes : List Node) :
    pushToLast node (clauses ++ [(h, nodes)]) = clauses ++ [(h, nodes ++ [node])] := by
  induction clauses with
  | nil => rfl
  | cons c clauses ih => cases clauses <;> simp_all [pushToLast]

/-- A block has no clause yet, or a last one. -/
theorem clauses_cases (b : Block) :
    b.clauses = [] ∨ ∃ front h nodes, b.clauses = front ++ [(h, nodes)] := by
  rcases List.eq_nil_or_concat b.clauses with h | ⟨front, ⟨h, nodes⟩, he⟩
  · exact .inl h
  · exact .inr ⟨front, h, nodes, by simpa using he⟩

theorem push_of_nil {b : Block} (h : b.clauses = []) (node : Node) :
    b.push node = { b with children := b.children ++ [node] } := by
  simp [push, h]

theorem push_of_concat {b : Block} {front : List (Head × List Node)} {h : Head} {nodes : List Node}
    (he : b.clauses = front ++ [(h, nodes)]) (node : Node) :
    b.push node = { b with clauses := front ++ [(h, nodes ++ [node])] } := by
  unfold push
  split
  · next hn => simp [hn] at he
  · rw [he, pushToLast_concat]

@[simp] theorem head_push (b : Block) (node : Node) : (b.push node).head = b.head := by
  unfold push
  split <;> rfl

@[simp] theorem isEmpty_clauses_push (b : Block) (node : Node) :
    (b.push node).clauses.isEmpty = b.clauses.isEmpty := by
  rcases b.clauses_cases with h | ⟨front, h, nodes, he⟩
  · simp [push_of_nil h, h]
  · rw [push_of_concat he, he]
    cases front <;> rfl

theorem marks_push (b : Block) (node : Node) : (b.push node).marks = b.marks ++ node.marks := by
  rcases b.clauses_cases with h | ⟨front, h, nodes, he⟩
  · simp [push_of_nil h, marks, h, marksOf, clauseMarks]
  · simp [push_of_concat he, marks, he, marksOf, clauseMarks]

/-- The bodies that a node at the end of the block stands in: a clause is not a part of the body. -/
def bodies (b : Block) (outer : List Head) : List Head :=
  if b.clauses.isEmpty then b.head :: outer else outer

end Block

theorem ClausesWellNested.push {bodies : List Head} {block h : Head} {nodes : List Node}
    {front : List (Head × List Node)} {node : Node}
    (hc : ClausesWellNested bodies block (front ++ [(h, nodes)])) (hn : node.WellNested bodies) :
    ClausesWellNested bodies block (front ++ [(h, nodes ++ [node])]) := by
  induction front with
  | nil =>
    obtain ⟨h₁, h₂, h₃, h₄⟩ := hc
    exact ⟨h₁, h₂, allWellNested_append.mpr ⟨h₃, hn, trivial⟩, h₄⟩
  | cons c front ih =>
    obtain ⟨h₁, h₂, h₃, h₄⟩ := hc
    refine ⟨h₁, fun ht => ?_, h₃, ih h₄⟩
    simpa using h₂ ht

theorem Block.WellNested.push {outer : List Head} {b : Block} {node : Node}
    (hb : b.WellNested outer) (hn : node.WellNested (b.bodies outer)) :
    (b.push node).WellNested outer := by
  rcases b.clauses_cases with h | ⟨front, h, nodes, he⟩
  · rw [Block.push_of_nil h]
    rw [Block.bodies, h] at hn
    exact { hb with children := allWellNested_append.mpr ⟨hb.children, hn, trivial⟩ }
  · rw [Block.push_of_concat he]
    rw [Block.bodies, he] at hn
    refine { hb with clauses := ?_, terminated := fun ht => ?_ }
    · refine ClausesWellNested.push (he ▸ hb.clauses) (by simpa using hn)
    · have hall := hb.terminated ht
      rw [he] at hall
      intro c hc
      rcases List.mem_append.mp hc with hc | hc
      · exact hall c (by simp [hc])
      · cases List.mem_singleton.mp hc
        exact hall (h, nodes) (by simp)

/-- A closed block is a well-nested node. -/
theorem Block.WellNested.node {outer : List Head} {b : Block}
    (hb : b.WellNested outer) : b.node.WellNested outer := by
  simp only [Block.node, Node.WellNested, hb.opener]
  exact ⟨hb.placed, hb.children, hb.clauses⟩

namespace Forest

/-! ### Steps -/

/-- The marks of the open blocks, the outermost first. -/
def stackMarks : List Block → List Mark
  | [] => []
  | b :: more => stackMarks more ++ b.marks

/-- The marks that have been read. -/
def marks (f : Forest) : List Mark := marksOf f.root ++ stackMarks f.stack

/-- The bodies that a node at the end of the innermost block stands in. -/
def bodies : List Block → List Head
  | [] => []
  | b :: more => b.bodies (bodies more)

/-- Every open block is well nested up to where it ends. -/
def StackWellNested : List Block → Prop
  | [] => True
  | b :: more => b.WellNested (bodies more) ∧ StackWellNested more

/-- What has been read is well nested as far as it goes. -/
def WellNested (f : Forest) : Prop := AllWellNested [] f.root ∧ StackWellNested f.stack

/-- What a mark does to the stack. -/
inductive Step : Forest → Mark → Forest → Prop where
  | text (f : Forest) (s : String) : Step f (.text s) (f.push (.text s))
  | output (f : Forest) (e : Expr) (offset : Nat) :
      Step f (.output e offset) (f.push (.output e offset))
  | standalone {f : Forest} {h : Head} (hr : h.descriptor.role = .standalone)
      (hp : h.Placed (bodies f.stack)) : Step f (.head h) (f.push (.tag h [] []))
  | opener {f : Forest} {h : Head} (hr : h.descriptor.role = .opener)
      (hp : h.Placed (bodies f.stack)) : Step f (.head h) ⟨f.root, .ofHead h :: f.stack⟩
  | clause {root : List Node} {b : Block} {more : List Block} {h : Head} (hd : h.Divides b.head)
      (ht : b.terminated = none) :
      Step ⟨root, b :: more⟩ (.head h)
        ⟨root, { b with
          clauses := b.clauses ++ [(h, [])]
          terminated := if h.descriptor.terminal then some h.name else none } :: more⟩
  | closer (root : List Node) (b : Block) (more : List Block) :
      Step ⟨root, b :: more⟩ (.closer b.head.name) (push ⟨root, more⟩ b.node)

/-- What a row of marks does to the stack. -/
inductive Runs : Forest → List Mark → Forest → Prop where
  | nil (f : Forest) : Runs f [] f
  | cons {f g f' : Forest} {m : Mark} {ms : List Mark} (h : Step f m g) (t : Runs g ms f') :
      Runs f (m :: ms) f'

theorem Runs.append {f g f' : Forest} {ms ns : List Mark} (h : Runs f ms g) (t : Runs g ns f') :
    Runs f (ms ++ ns) f' := by
  induction h with
  | nil => exact t
  | cons h _ ih => exact .cons h (ih t)

theorem Step.single {f f' : Forest} {m : Mark} (h : Step f m f') : Runs f [m] f' :=
  .cons h (.nil f')

/-! ### From steps to trees -/

theorem marks_push (f : Forest) (node : Node) : (f.push node).marks = f.marks ++ node.marks := by
  obtain ⟨root, _ | ⟨b, more⟩⟩ := f
  · simp [push, marks, stackMarks, marksOf]
  · simp [push, marks, stackMarks, Block.marks_push]

@[simp] theorem bodies_push (f : Forest) (node : Node) :
    bodies (f.push node).stack = bodies f.stack := by
  obtain ⟨root, _ | ⟨b, more⟩⟩ := f
  · rfl
  · simp [push, bodies, Block.bodies]

theorem WellNested.push {f : Forest} {node : Node} (hf : f.WellNested)
    (hn : node.WellNested (bodies f.stack)) : (f.push node).WellNested := by
  obtain ⟨root, _ | ⟨b, more⟩⟩ := f
  · exact ⟨allWellNested_append.mpr ⟨hf.1, hn, trivial⟩, hf.2⟩
  · exact ⟨hf.1, hf.2.1.push hn, hf.2.2⟩

/-- A step reads its mark. -/
theorem Step.marks {f f' : Forest} {m : Mark} (h : Step f m f') (hf : f.WellNested) :
    f'.marks = f.marks ++ [m] := by
  cases h with
  | text s => simp [marks_push, Node.marks]
  | output e offset => simp [marks_push, Node.marks]
  | standalone hr hp => simp [marks_push, Node.marks, hr]
  | opener hr hp =>
    simp [Forest.marks, stackMarks, Block.marks, Block.ofHead, marksOf, clauseMarks]
  | clause hd ht => simp [Forest.marks, stackMarks, Block.marks, marksOf, clauseMarks]
  | closer root b more =>
    have ho : b.head.descriptor.role = .opener := hf.2.1.opener
    rw [marks_push]
    simp [Block.node, Node.marks, ho, Forest.marks, stackMarks, Block.marks]

/-- A step keeps what is read well nested. -/
theorem Step.wellNested {f f' : Forest} {m : Mark} (h : Step f m f') (hf : f.WellNested) :
    f'.WellNested := by
  cases h with
  | text s => exact hf.push trivial
  | output e offset => exact hf.push trivial
  | standalone hr hp =>
    refine hf.push ?_
    simp only [Node.WellNested, hr]
    exact ⟨hp, trivial, trivial⟩
  | opener hr hp =>
    exact ⟨hf.1, ⟨hr, hp, trivial, trivial, fun _ c hc => absurd hc (by simp [Block.ofHead])⟩, hf.2⟩
  | @clause root b more h hd ht =>
    obtain ⟨hroot, hb, hmore⟩ := hf
    have hall := hb.terminated ht
    have hclauses : ClausesWellNested (Forest.bodies more) b.head (b.clauses ++ [(h, [])]) :=
      hb.clauses.concat hall hd trivial
    refine ⟨hroot, { hb with clauses := hclauses, terminated := ?_ }, hmore⟩
    intro hn c hc
    -- the new clause is not terminal, or no clause may come any more
    rcases List.mem_append.mp hc with hc | hc
    · exact hall c hc
    · cases List.mem_singleton.mp hc
      by_contra hterm
      simp [hterm] at hn
  | closer root b more => exact WellNested.push ⟨hf.1, hf.2.2⟩ hf.2.1.node

/-- A run from nothing reads its marks into a tree that is well nested as far as it goes. -/
theorem Runs.wellNested {f f' : Forest} {ms : List Mark} (h : Runs f ms f') (hf : f.WellNested) :
    f'.WellNested ∧ f'.marks = f.marks ++ ms := by
  induction h with
  | nil f => exact ⟨hf, by simp⟩
  | cons h _ ih =>
    obtain ⟨hw, hm⟩ := ih (h.wellNested hf)
    exact ⟨hw, by simp [hm, h.marks hf]⟩

/-! ### From trees to steps -/

/-- A row of nodes at the end of the innermost block. -/
def pushAll (f : Forest) (nodes : List Node) : Forest := nodes.foldl push f

theorem pushAll_root (root nodes : List Node) : pushAll ⟨root, []⟩ nodes = ⟨root ++ nodes, []⟩ := by
  induction nodes generalizing root with
  | nil => simp [pushAll]
  | cons node nodes ih => simpa [pushAll, push] using ih (root ++ [node])

theorem pushAll_children (root : List Node) (more : List Block) (h : Head) (children : List Node)
    (t : Option String) (nodes : List Node) :
    pushAll ⟨root, ⟨h, children, [], t⟩ :: more⟩ nodes =
      ⟨root, ⟨h, children ++ nodes, [], t⟩ :: more⟩ := by
  induction nodes generalizing children with
  | nil => simp [pushAll]
  | cons node nodes ih => simpa [pushAll, push, Block.push] using ih (children ++ [node])

theorem pushAll_clause (root : List Node) (more : List Block) (h c : Head)
    (children inner : List Node) (front : List (Head × List Node)) (t : Option String)
    (nodes : List Node) :
    pushAll ⟨root, ⟨h, children, front ++ [(c, inner)], t⟩ :: more⟩ nodes =
      ⟨root, ⟨h, children, front ++ [(c, inner ++ nodes)], t⟩ :: more⟩ := by
  induction nodes generalizing inner with
  | nil => simp [pushAll]
  | cons node nodes ih =>
    have hp := Block.push_of_concat (b := ⟨h, children, front ++ [(c, inner)], t⟩) rfl node
    simpa [pushAll, push, hp] using ih (inner ++ [node])

mutual

/-- The marks of a well-nested node run to the stack with the node. -/
theorem runs_marks {f : Forest} : ∀ {node : Node}, node.WellNested (bodies f.stack) →
    Runs f node.marks (f.push node)
  | .text s, _ => (Step.text f s).single
  | .output e offset, _ => (Step.output f e offset).single
  | .tag h children clauses, hw => by
    obtain ⟨hp, hw⟩ := hw
    cases hr : h.descriptor.role with
    | standalone =>
      simp only [hr] at hw
      obtain ⟨rfl, rfl⟩ := hw
      simpa [Node.marks, hr] using (Step.standalone hr hp).single
    | clause => simp [hr] at hw
    | opener =>
      simp only [hr] at hw
      obtain ⟨hc, hcs⟩ := hw
      simp only [Node.marks, hr]
      -- the head opens a block, which the body and the clauses fill and the last mark closes
      have hbody := runs_marksOf (f := ⟨f.root, .ofHead h :: f.stack⟩) hc
      rw [Block.ofHead, pushAll_children, List.nil_append] at hbody
      obtain ⟨t, hclauses⟩ := runs_clauseMarks f.root ⟨h, children, [], none⟩ hcs fun _ => rfl
      exact .cons (.opener hr hp) (hbody.append (hclauses.append (Step.closer ..).single))

/-- The marks of a well-nested row of nodes run to the stack with the row. -/
theorem runs_marksOf {f : Forest} : ∀ {nodes : List Node}, AllWellNested (bodies f.stack) nodes →
    Runs f (marksOf nodes) (f.pushAll nodes)
  | [], _ => .nil f
  | node :: nodes, ⟨hn, hs⟩ =>
    (runs_marks hn).append (runs_marksOf (f := f.push node) (by simpa using hs))

/-- The marks of well-nested clauses run to the stack with the clauses in the innermost block. -/
theorem runs_clauseMarks (root : List Node) (b : Block) {more : List Block} :
    ∀ {clauses : List (Head × List Node)}, ClausesWellNested (bodies more) b.head clauses →
    (clauses ≠ [] → b.terminated = none) → ∃ t, Runs ⟨root, b :: more⟩ (clauseMarks clauses)
      ⟨root, ⟨b.head, b.children, b.clauses ++ clauses, t⟩ :: more⟩
  | [], _, _ => ⟨b.terminated, by rw [List.append_nil]; exact .nil _⟩
  | (h, nodes) :: clauses, ⟨hd, hterm, hn, hcs⟩, ht => by
    let t := if h.descriptor.terminal then some h.name else none
    have hnodes := runs_marksOf
      (f := ⟨root, ⟨b.head, b.children, b.clauses ++ [(h, [])], t⟩ :: more⟩)
      (by simpa [bodies, Block.bodies] using hn)
    rw [pushAll_clause, List.nil_append] at hnodes
    obtain ⟨t', hclauses⟩ := runs_clauseMarks root
      ⟨b.head, b.children, b.clauses ++ [(h, nodes)], t⟩ hcs fun hne => by
        simpa [t] using fun hh => hne (hterm hh)
    refine ⟨t', .cons (.clause hd (ht (by simp))) (hnodes.append ?_)⟩
    simpa using hclauses

end

/-- The marks that lead from nothing to a tree are those of a well-nested tree. -/
theorem runs_empty_iff {ms : List Mark} {nodes : List Node} :
    Runs empty ms ⟨nodes, []⟩ ↔ AllWellNested [] nodes ∧ ms = marksOf nodes := by
  constructor
  · intro h
    obtain ⟨⟨hw, -⟩, hm⟩ := h.wellNested ⟨trivial, trivial⟩
    exact ⟨hw, by simpa [marks, stackMarks, empty, marksOf] using hm.symm⟩
  · rintro ⟨hw, rfl⟩
    simpa [pushAll_root, empty] using runs_marksOf (f := empty) hw

/-! ### Items as steps -/

theorem mem_bodies {h : Head} {stack : List Block} :
    h ∈ bodies stack ↔ ∃ b ∈ stack, b.clauses = [] ∧ h = b.head := by
  induction stack with
  | nil => simp [bodies]
  | cons b more ih =>
    by_cases hb : b.clauses = []
    · simp [bodies, Block.bodies, hb, ih]
    · simp [bodies, Block.bodies, hb, ih]

theorem encloses_iff {f : Forest} {h : Head} :
    f.encloses h.descriptor.inside = true ↔ h.Placed (bodies f.stack) := by
  simp only [encloses, Head.Placed, Bool.or_eq_true, List.isEmpty_iff, List.any_eq_true,
    Bool.and_eq_true, Block.isOneOf_iff, mem_bodies]
  refine or_congr_right ⟨?_, ?_⟩
  · rintro ⟨b, hb, ho, he⟩
    exact ⟨b.head, ⟨b, hb, he, rfl⟩, ho⟩
  · rintro ⟨_, ⟨b, hb, he, rfl⟩, ho⟩
    exact ⟨b, hb, ho, he⟩

theorem addClause_eq_ok_iff {f f' : Forest} {h : Head} (hr : h.descriptor.role = .clause) :
    f.addClause h = .ok f' ↔ Step f (.head h) f' := by
  constructor
  · intro e
    obtain ⟨root, _ | ⟨b, more⟩⟩ := f
    · cases e
    · unfold addClause at e
      dsimp only at e
      split at e
      · cases e
      · next hb =>
        split at e
        · cases e
        · next ht =>
          cases e
          exact .clause ⟨hr, Block.isOneOf_iff.mp (by simpa using hb)⟩ ht
  · intro e
    cases e with
    | standalone hr' => simp [hr] at hr'
    | opener hr' => simp [hr] at hr'
    | clause hd ht => simp [addClause, Block.isOneOf_iff.mpr hd.2, ht]

theorem addTag_eq_ok_iff {f f' : Forest} {h : Head} (hp : h.Placed (bodies f.stack)) :
    f.addTag h = .ok f' ↔ Step f (.head h) f' := by
  unfold addTag
  split
  · next hr =>
    constructor
    · intro e; cases e; exact .standalone hr hp
    · intro e
      cases e with
      | standalone => rfl
      | opener hr' => simp [hr] at hr'
      | clause hd => cases hr.symm.trans hd.1
  · next hr =>
    constructor
    · intro e; cases e; exact .opener hr hp
    · intro e
      cases e with
      | standalone hr' => simp [hr] at hr'
      | opener => rfl
      | clause hd => cases hr.symm.trans hd.1
  · next hr => exact addClause_eq_ok_iff hr

theorem close_eq_ok_iff {f f' : Forest} {closer opener : String} {rest : List Char} {offset : Nat} :
    f.close closer opener rest offset = .ok f' ↔ rest = [] ∧ Step f (.closer opener) f' := by
  constructor
  · intro e
    obtain ⟨root, _ | ⟨b, more⟩⟩ := f
    · cases e
    · unfold close at e
      dsimp only at e
      split at e
      · cases e
      · next hb =>
        split at e
        · cases e
        · next hr =>
          cases e
          cases not_not.mp hb
          exact ⟨by simpa using hr, .closer root b more⟩
  · rintro ⟨rfl, e⟩
    cases e with
    | closer root b more => simp [close]

/-- Which steps a head makes says that it is placed, if clauses ask for nothing around them. -/
theorem Step.placed {f f' : Forest} {h : Head} (e : Step f (.head h) f')
    (hf : h.descriptor.role = .clause → h.descriptor.inside = []) :
    h.Placed (bodies f.stack) := by
  cases e with
  | standalone _ hp => exact hp
  | opener _ hp => exact hp
  | clause hd => exact .inl (hf hd.1)

section
variable {registry : Tag.Registry} {mode : Mode} {f f' : Forest}

theorem readOutput_eq_ok_iff {source : Source} :
    readOutput mode f source = .ok f' ↔
      ∃ mark, ReadsAs registry mode (.output source) mark ∧ Step f mark f' := by
  unfold readOutput
  split
  · next hb =>
    refine ⟨nofun, ?_⟩
    rintro ⟨_, hm, -⟩
    cases hm with
    | output he =>
      obtain ⟨e, hb⟩ := Expr.parse_of_allBlank mode (Text.allBlank_of_trim hb) source.base
      simp [hb] at he
  · rw [bind_eq_ok_iff]
    constructor
    · rintro ⟨e, he, hf⟩
      cases hf
      exact ⟨_, .output he, .output f e source.offset⟩
    · rintro ⟨_, hm, hs⟩
      cases hm with
      | output he =>
        cases hs
        exact ⟨_, he, rfl⟩

/-- A tag that the registry does not have is read as a closing tag. -/
theorem readsAs_of_unknown {source : Source}
    (hd : registry.get? (String.ofList (tagWords mode source).first) mode = none) {m : Mark} :
    ReadsAs registry mode (.tag source) m ↔ ∃ opener, m = .closer opener ∧
      Tag.closes? (String.ofList (tagWords mode source).first) = some opener ∧
        (tagWords mode source).rest = [] := by
  constructor
  · intro hm
    cases hm with
    | head hw hd' =>
      rw [← tagWords_iff.mp hw, hd] at hd'
      cases hd'
    | closer hw hn hrest =>
      cases tagWords_iff.mp hw
      exact ⟨_, rfl, Tag.closes?_eq_some_iff.mpr hn, hrest⟩
  · rintro ⟨opener, rfl, ho, hrest⟩
    exact .closer (tagWords_iff.mpr rfl) (Tag.closes?_eq_some_iff.mp ho) hrest

/-- A tag that the registry has is read as a head. -/
theorem readsAs_of_known (hr : registry.Reachable) {source : Source} {d : Tag.Descriptor}
    (hd : registry.get? (String.ofList (tagWords mode source).first) mode = some d) {m : Mark} :
    ReadsAs registry mode (.tag source) m ↔ ∃ args,
      readArgs mode d.start (String.ofList (tagWords mode source).first)
        (tagWords mode source).rest (tagWords mode source).restOffset = .ok args ∧
      m = .head ⟨String.ofList (tagWords mode source).first, d, args, source.offset⟩ := by
  constructor
  · intro hm
    cases hm with
    | head hw hd' ha =>
      cases tagWords_iff.mp hw
      cases hd.symm.trans hd'
      exact ⟨_, ha, rfl⟩
    | closer hw hn =>
      rw [tagWords_iff.mp hw, hn, hr.get?_end] at hd
      cases hd
  · rintro ⟨args, ha, rfl⟩
    exact .head (tagWords_iff.mpr rfl) hd ha

theorem readTag_eq_ok_iff (hr : registry.Reachable) (hc : registry.FreeClauses) {source : Source} :
    readTag registry mode f source = .ok f' ↔
      ∃ mark, ReadsAs registry mode (.tag source) mark ∧ Step f mark f' := by
  unfold readTag
  dsimp only
  cases hd : registry.get? (String.ofList (tagWords mode source).first) mode with
  | none =>
    simp only [readsAs_of_unknown hd]
    split
    · next he =>
      -- no closing name is empty
      refine ⟨nofun, ?_⟩
      rintro ⟨_, ⟨opener, rfl, ho, -⟩, -⟩
      rw [List.isEmpty_iff.mp he, Tag.closes?_eq_some_iff] at ho
      simpa using congrArg String.toList ho
    · split
      · next opener ho =>
        rw [close_eq_ok_iff]
        constructor
        · rintro ⟨hrest, hs⟩
          exact ⟨_, ⟨opener, rfl, ho, hrest⟩, hs⟩
        · rintro ⟨_, ⟨opener', rfl, ho', hrest⟩, hs⟩
          cases ho.symm.trans ho'
          exact ⟨hrest, hs⟩
      · next ho =>
        refine ⟨nofun, ?_⟩
        rintro ⟨_, ⟨opener, -, ho', -⟩, -⟩
        cases ho.symm.trans ho'
  | some d =>
    -- no name in the registry is empty
    have hne : (tagWords mode source).first.isEmpty = false := by
      refine Bool.eq_false_iff.mpr fun he => (hr.admissible_of_get? hd).ne_empty ?_
      rw [List.isEmpty_iff.mp he]
    simp only [readsAs_of_known hr hd, hne, Bool.false_eq_true, if_false]
    constructor
    · intro h
      split at h
      · cases h
      · next hp =>
        obtain ⟨args, ha, h⟩ := bind_eq_ok_iff.mp h
        refine ⟨_, ⟨args, ha, rfl⟩, (addTag_eq_ok_iff ?_).mp h⟩
        exact encloses_iff.mp (by simpa using hp)
    · rintro ⟨_, ⟨args, ha, rfl⟩, hs⟩
      have hp := hs.placed fun hrole => hc _ _ _ hd hrole
      rw [if_neg (by simpa using encloses_iff.mpr hp)]
      exact bind_eq_ok_iff.mpr ⟨_, ha, (addTag_eq_ok_iff hp).mpr hs⟩

theorem feed_eq_ok_iff (hr : registry.Reachable) (hc : registry.FreeClauses) {item : Item}
    (hi : item ≠ .text []) :
    feed registry mode f item = .ok f' ↔
      ∃ mark, ReadsAs registry mode item mark ∧ Step f mark f' := by
  match item with
  | .text [] => exact absurd rfl hi
  | .text (c :: cs) =>
    constructor
    · intro h
      cases h
      exact ⟨_, .text (c :: cs), .text f _⟩
    · rintro ⟨_, hm, hs⟩
      cases hm
      cases hs
      rfl
  | .output source => exact readOutput_eq_ok_iff
  | .tag source => exact readTag_eq_ok_iff hr hc

/-- A list of items is a run of the steps of its marks. -/
theorem foldlM_feed_eq_ok_iff (hr : registry.Reachable) (hc : registry.FreeClauses)
    (items : List Item) :
    items.foldlM (feed registry mode) f = .ok f' ↔
      ∃ ms, Reads registry mode items ms ∧ Runs f ms f' := by
  induction items generalizing f with
  | nil =>
    constructor
    · intro h
      cases h
      exact ⟨[], .nil, .nil _⟩
    · rintro ⟨_, hm, hs⟩
      cases hm
      cases hs
      rfl
  | cons item items ih =>
    rw [List.foldlM_cons]
    by_cases hi : item = .text []
    · subst hi
      exact ih
    · rw [bind_eq_ok_iff]
      constructor
      · rintro ⟨g, hg, ht⟩
        obtain ⟨m, hm, hs⟩ := (feed_eq_ok_iff hr hc hi).mp hg
        obtain ⟨ms, hms, hrun⟩ := ih.mp ht
        exact ⟨m :: ms, (reads_cons_iff hi).mpr ⟨m, ms, hm, hms, rfl⟩, .cons hs hrun⟩
      · rintro ⟨_, hm, hrun⟩
        obtain ⟨m, ms, hread, hms, rfl⟩ := (reads_cons_iff hi).mp hm
        cases hrun with
        | cons hs hrun =>
          exact ⟨_, (feed_eq_ok_iff hr hc hi).mpr ⟨m, hread, hs⟩, ih.mpr ⟨ms, hms, hrun⟩⟩

/-- The items have a tree when their marks run to it. -/
theorem ofItems_ok_iff_runs (hr : registry.Reachable) (hc : registry.FreeClauses)
    (items : List Item) (nodes : List Node) :
    ofItems registry mode items = .ok nodes ↔
      ∃ ms, Reads registry mode items ms ∧ Runs empty ms ⟨nodes, []⟩ := by
  rw [ofItems, bind_eq_ok_iff]
  constructor
  · rintro ⟨⟨root, stack⟩, hf, hfinish⟩
    cases stack with
    | nil =>
      cases hfinish
      exact (foldlM_feed_eq_ok_iff hr hc items).mp hf
    | cons b more => cases hfinish
  · intro h
    exact ⟨⟨nodes, []⟩, (foldlM_feed_eq_ok_iff hr hc items).mpr h, rfl⟩

/-- A template that has been read is a well-nested tree, and its items are read as the marks that
the tree is written with. -/
theorem reads_of_parse (hr : registry.Reachable) (hc : registry.FreeClauses) {source : String}
    {nodes : List Node} (h : parse registry mode source = .ok nodes) :
    AllWellNested [] nodes ∧ ∃ items, Reads registry mode items (marksOf nodes) := by
  obtain ⟨ps, -, hn⟩ := bind_eq_ok_iff.mp h
  obtain ⟨ms, hm, hrun⟩ := (ofItems_ok_iff_runs hr hc _ _).mp hn
  obtain ⟨hw, rfl⟩ := runs_empty_iff.mp hrun
  exact ⟨hw, items ps, hm⟩

/-- **The reader of templates decides well-nestedness.**  The items have a tree exactly when they
are read as the marks of a well-nested tree, and it is that tree. -/
theorem ofItems_eq_ok_iff (hr : registry.Reachable) (hc : registry.FreeClauses)
    (items : List Item) (nodes : List Node) :
    ofItems registry mode items = .ok nodes ↔
      AllWellNested [] nodes ∧ Reads registry mode items (marksOf nodes) := by
  rw [ofItems_ok_iff_runs hr hc]
  constructor
  · rintro ⟨ms, hm, hrun⟩
    obtain ⟨hw, rfl⟩ := runs_empty_iff.mp hrun
    exact ⟨hw, hm⟩
  · rintro ⟨hw, hm⟩
    exact ⟨_, hm, runs_empty_iff.mpr ⟨hw, rfl⟩⟩

end

/-- An `if` in python with two clauses, the first written `else if`. -/
theorem ofItems_else_if : ∃ ps nodes,
    pieces "\x7b% if a %\x7dx\x7b% else if b -%\x7d \x7b\x7b b \x7d\x7d\x7b% else %\x7d\x7b% endif %\x7d" = .ok ps ∧
      ofItems .standard .python (items ps) = .ok nodes ∧ AllWellNested [] nodes ∧
        Reads .standard .python (items ps) (marksOf nodes) := by
  have hok : (parse .standard .python
      "\x7b% if a %\x7dx\x7b% else if b -%\x7d \x7b\x7b b \x7d\x7d\x7b% else %\x7d\x7b% endif %\x7d").isOk =
        true := by decide +kernel
  obtain ⟨nodes, hp⟩ := exists_of_isOk hok
  obtain ⟨ps, hps, hn⟩ := bind_eq_ok_iff.mp hp
  exact ⟨ps, nodes, hps, hn,
    (ofItems_eq_ok_iff .standard Tag.Registry.freeClauses_standard (items ps) nodes).mp hn⟩

end Forest

end TemplateEngine.Markup
