import TemplateEngine.Proofs.Markup.BlockStructure
import TemplateEngine.Proofs.Markup.Places

/-!
# Trees without their places

A bare tree has no offsets and no two texts side by side.  Making a tree bare goes along with adding
nodes at its end (`bareAll_append`), so two stacks of blocks that agree when they are bare still do
after marks that agree (`Runs.bare`).

Whether a row of marks runs through at all depends on even less: not on the texts (`Runs.alike`).
-/

namespace TemplateEngine.Markup

/-! ### Bare trees -/

/-- A node in front of a row; a text joins a text that comes next. -/
def join : Node → List Node → List Node
  | .text s, .text t :: more => .text (s ++ t) :: more
  | node, nodes => node :: nodes

mutual

/-- The node without places, and without texts side by side below it. -/
def Node.bare : Node → Node
  | .text s => .text s
  | .output e _ => .output e 0
  | .tag h children clauses => .tag h.bare (bareAll children) (bareClauses clauses)

/-- The nodes without places and without texts side by side. -/
def bareAll : List Node → List Node
  | [] => []
  | node :: nodes => join node.bare (bareAll nodes)

/-- The clauses without places and without texts side by side. -/
def bareClauses : List (Head × List Node) → List (Head × List Node)
  | [] => []
  | (h, nodes) :: more => (h.bare, bareAll nodes) :: bareClauses more

end

theorem join_text_text (s t : String) (nodes : List Node) :
    join (.text (s ++ t)) nodes = join (.text s) (join (.text t) nodes) := by
  cases nodes with
  | nil => rfl
  | cons node nodes => cases node <;> simp [join, String.append_assoc]

/-- Texts join in any order. -/
theorem foldr_join (node : Node) (nodes acc : List Node) :
    (join node nodes).foldr join acc = join node (nodes.foldr join acc) := by
  cases node with
  | output | tag => rfl
  | text s =>
    cases nodes with
    | nil => rfl
    | cons node nodes =>
      cases node with
      | output | tag => rfl
      | text t => exact join_text_text s t _

theorem bareAll_append (xs ys : List Node) :
    bareAll (xs ++ ys) = (bareAll xs).foldr join (bareAll ys) := by
  induction xs with
  | nil => rfl
  | cons x xs ih => rw [List.cons_append, bareAll, ih, bareAll, foldr_join]

theorem bareClauses_eq_map (clauses : List (Head × List Node)) :
    bareClauses clauses = clauses.map fun c => (c.1.bare, bareAll c.2) := by
  induction clauses with
  | nil => rfl
  | cons c clauses ih => rw [bareClauses, ih, List.map_cons]

/-! ### Bare stacks -/

/-- The block without places. -/
def Block.bare (b : Block) : Block :=
  ⟨b.head.bare, bareAll b.children, bareClauses b.clauses, b.terminated⟩

theorem Block.bare_node {b c : Block} (h : b.bare = c.bare) : b.node.bare = c.node.bare := by
  simp only [Block.bare, Block.mk.injEq] at h
  simp only [Block.node, Node.bare, h.1, h.2.1, h.2.2.1]

namespace Forest

/-- The forest without places. -/
def bare (f : Forest) : Forest := ⟨bareAll f.root, f.stack.map Block.bare⟩

theorem bare_eq_iff {f g : Forest} : f.bare = g.bare ↔
    bareAll f.root = bareAll g.root ∧ f.stack.map Block.bare = g.stack.map Block.bare := by
  rw [bare, bare, Forest.mk.injEq]

/-- Rows that agree when they are bare, at the ends of forests that do. -/
theorem bare_pushAll {f g : Forest} {xs ys : List Node} (h : f.bare = g.bare)
    (hn : bareAll xs = bareAll ys) : (f.pushAll xs).bare = (g.pushAll ys).bare := by
  obtain ⟨root, stack⟩ := f
  obtain ⟨root', stack'⟩ := g
  obtain ⟨hroot, hstack⟩ := bare_eq_iff.mp h
  have hjoin : ∀ {zs zs' : List Node}, bareAll zs = bareAll zs' →
      bareAll (zs ++ xs) = bareAll (zs' ++ ys) := by
    intro zs zs' hz
    rw [bareAll_append, bareAll_append, hz, hn]
  cases stack with
  | nil =>
    rw [List.map_nil, eq_comm, List.map_eq_nil_iff] at hstack
    subst hstack
    simp only [pushAll_root, bare, hjoin hroot, List.map_nil]
  | cons b more =>
    obtain ⟨b', more', rfl, hb, hmore⟩ := List.map_eq_cons_iff.mp hstack.symm
    obtain ⟨head, children, clauses, t⟩ := b
    obtain ⟨head', children', clauses', t'⟩ := b'
    simp only [Block.bare, Block.mk.injEq] at hb
    obtain ⟨hhead, hchildren, hclauses, rfl⟩ := hb
    rcases List.eq_nil_or_concat clauses with rfl | ⟨front, ⟨c, inner⟩, rfl⟩
    · obtain rfl : clauses' = [] := by simpa [bareClauses_eq_map, bareClauses] using hclauses
      simp only [pushAll_children, bare, List.map_cons, Block.bare, hroot, hhead, hmore,
        hjoin hchildren.symm, bareClauses]
    · rw [List.concat_eq_append] at hclauses ⊢
      rcases List.eq_nil_or_concat clauses' with rfl | ⟨front', ⟨c', inner'⟩, rfl⟩
      · simp [bareClauses_eq_map] at hclauses
      · rw [List.concat_eq_append] at hclauses ⊢
        simp only [bareClauses_eq_map, List.map_append, List.map_cons, List.map_nil] at hclauses
        obtain ⟨hfront, hlast⟩ := List.append_inj' hclauses rfl
        obtain ⟨hc, hinner⟩ := Prod.mk.injEq .. ▸ List.singleton_inj.mp hlast
        simp only [pushAll_clause, bare, List.map_cons, Block.bare, hroot, hhead, hmore, hchildren,
          bareClauses_eq_map, List.map_append, List.map_nil, hfront, hc, hjoin hinner.symm]

theorem bare_push {f g : Forest} {node node' : Node} (h : f.bare = g.bare)
    (hn : node.bare = node'.bare) : (f.push node).bare = (g.push node').bare := by
  have hnodes : bareAll [node] = bareAll [node'] := by simp only [bareAll, hn]
  exact bare_pushAll h hnodes

/-! ### Steps -/

theorem Head.bare_inj {h h' : Head} (e : Mark.bare (.head h) = Mark.bare (.head h')) :
    h.bare = h'.bare ∧ h.descriptor = h'.descriptor ∧ h.name = h'.name := by
  have hb : h.bare = h'.bare := Mark.head.inj e
  exact ⟨hb, (congrArg Head.descriptor hb :), (congrArg Head.name hb :)⟩

/-- A mark does the same to stacks that agree. -/
theorem Step.bare {f f' g g' : Forest} {m m' : Mark} (hf : Step f m f') (hg : Step g m' g')
    (h : f.bare = g.bare) (hm : m.bare = m'.bare) : f'.bare = g'.bare := by
  cases hf with
  | text f s =>
    cases hg <;> cases hm
    exact bare_push h rfl
  | output f e offset =>
    cases hg <;> cases hm
    exact bare_push h rfl
  | standalone hr hp =>
    cases hg with
    | standalone hr' hp' =>
      exact bare_push h (by simp only [Node.bare, (Head.bare_inj hm).1])
    | opener hr' hp' => simp [(Head.bare_inj hm).2.1, hr'] at hr
    | clause hd ht => simp [(Head.bare_inj hm).2.1, hd.1] at hr
    | text | output | closer => cases hm
  | opener hr hp =>
    cases hg with
    | standalone hr' hp' => simp [(Head.bare_inj hm).2.1, hr'] at hr
    | opener hr' hp' =>
      obtain ⟨hroot, hstack⟩ := bare_eq_iff.mp h
      simp only [Forest.bare, hroot, List.map_cons, hstack, Block.bare, Block.ofHead,
        (Head.bare_inj hm).1]
    | clause hd ht => simp [(Head.bare_inj hm).2.1, hd.1] at hr
    | text | output | closer => cases hm
  | clause hd ht =>
    cases hg with
    | standalone hr hp => exact absurd hd.1 (by simp [(Head.bare_inj hm).2.1, hr])
    | opener hr hp => exact absurd hd.1 (by simp [(Head.bare_inj hm).2.1, hr])
    | clause hd' ht' =>
      obtain ⟨hb, hd, hn⟩ := Head.bare_inj hm
      simp only [bare_eq_iff, List.map_cons, List.cons.injEq, Block.bare, Block.mk.injEq] at h
      obtain ⟨hroot, ⟨hhead, hchildren, hclauses, -⟩, hmore⟩ := h
      rw [bareClauses_eq_map, bareClauses_eq_map] at hclauses
      simp only [Forest.bare, hroot, List.map_cons, hmore, Block.bare, hhead, hchildren,
        bareClauses_eq_map, List.map_append, hclauses, List.map_nil, hb, hd, hn]
    | text | output | closer => cases hm
  | closer root b more =>
    cases hg with
    | closer root' b' more' =>
      simp only [bare_eq_iff, List.map_cons, List.cons.injEq] at h
      exact bare_push (bare_eq_iff.mpr ⟨h.1, h.2.2⟩) (Block.bare_node h.2.1)
    | text | output | standalone | opener | clause => cases hm

/-- Stacks that agree when they are bare still do after marks that agree. -/
theorem Runs.bare {f f' g g' : Forest} {ms ms' : List Mark} (hf : Runs f ms f')
    (hg : Runs g ms' g') (h : f.bare = g.bare) (hm : ms.map Mark.bare = ms'.map Mark.bare) :
    f'.bare = g'.bare := by
  induction hf generalizing g ms' with
  | nil =>
    rw [List.map_nil, eq_comm, List.map_eq_nil_iff] at hm
    subst hm
    cases hg
    exact h
  | cons hs _ ih =>
    obtain ⟨m', ms', rfl, he, hmore⟩ := List.map_eq_cons_iff.mp hm.symm
    cases hg with
    | cons hs' hr => exact ih hr (hs.bare hs' h he.symm) hmore.symm

/-- What the blocks that are open say of the marks that can come. -/
def frames (f : Forest) : List (Head × Bool × Option String) :=
  f.stack.map fun b => (b.head.bare, b.clauses.isEmpty, b.terminated)

/-- Rows of marks that differ in places and in texts. -/
inductive Alike : List Mark → List Mark → Prop where
  | nil : Alike [] []
  | left (s : String) {ms ms' : List Mark} (h : Alike ms ms') : Alike (.text s :: ms) ms'
  | right (s : String) {ms ms' : List Mark} (h : Alike ms ms') : Alike ms (.text s :: ms')
  | cons {m m' : Mark} {ms ms' : List Mark} (hm : m.bare = m'.bare) (h : Alike ms ms') :
      Alike (m :: ms) (m' :: ms')

theorem frames_push (f : Forest) (node : Node) : (f.push node).frames = f.frames := by
  obtain ⟨root, _ | ⟨b, more⟩⟩ := f
  · rfl
  · have ht : (b.push node).terminated = b.terminated := by
      unfold Block.push
      split <;> rfl
    simp [push, frames, ht]

theorem map_bare_bodies (stack : List Block) (root : List Node) :
    (bodies stack).map Head.bare =
      ((frames ⟨root, stack⟩).filter fun x => x.2.1).map Prod.fst := by
  induction stack with
  | nil => rfl
  | cons b more ih =>
    simp only [frames, List.map_cons, List.filter_cons, bodies, Block.bodies] at ih ⊢
    cases b.clauses.isEmpty <;> simp [ih]

theorem placed_of_frames {f g : Forest} (h : f.frames = g.frames) {head head' : Head}
    (hd : head.descriptor = head'.descriptor) (hp : head.Placed (bodies f.stack)) :
    head'.Placed (bodies g.stack) := by
  rcases hp with hp | ⟨b, hb, hn⟩
  · exact .inl (hd ▸ hp)
  · have hmem : b.bare ∈ (bodies g.stack).map Head.bare := by
      rw [map_bare_bodies _ g.root, ← h, ← map_bare_bodies]
      exact List.mem_map_of_mem hb
    obtain ⟨b', hb', he⟩ := List.mem_map.mp hmem
    have hdb : b'.descriptor = b.descriptor := (congrArg Head.descriptor he :)
    refine .inr ⟨b', hb', ?_⟩
    rwa [Head.IsOneOf, hdb, ← hd]

/-- The block that is open innermost, from what the blocks say. -/
theorem exists_of_frames_cons {root : List Node} {b : Block} {more : List Block} {g : Forest}
    (h : frames ⟨root, b :: more⟩ = g.frames) :
    ∃ root' b' more', g = ⟨root', b' :: more'⟩ ∧ b.head.bare = b'.head.bare ∧
      b.terminated = b'.terminated ∧ frames ⟨root, more⟩ = frames ⟨root', more'⟩ := by
  obtain ⟨root', stack⟩ := g
  obtain ⟨b', more', rfl, hb, hmore⟩ := List.map_eq_cons_iff.mp h.symm
  simp only [Prod.mk.injEq] at hb
  exact ⟨root', b', more', rfl, hb.1.symm, hb.2.2.symm, hmore.symm⟩

/-- A mark that can come can come at stacks of like blocks. -/
theorem Step.exists_of_frames {f f' g : Forest} {m m' : Mark} (hs : Step f m f')
    (h : f.frames = g.frames) (hm : m.bare = m'.bare) :
    ∃ g', Step g m' g' ∧ f'.frames = g'.frames := by
  cases hs with
  | text f s =>
    cases m' <;> cases hm
    exact ⟨_, .text g s, by rw [frames_push, frames_push, h]⟩
  | output f e offset =>
    cases m' <;> cases hm
    exact ⟨_, .output g e _, by rw [frames_push, frames_push, h]⟩
  | standalone hr hp =>
    cases m' with
    | head h' =>
      obtain ⟨-, hd, -⟩ := Head.bare_inj hm
      exact ⟨_, .standalone (hd ▸ hr) (placed_of_frames h hd hp), by
        rw [frames_push, frames_push, h]⟩
    | text | output | closer => cases hm
  | opener hr hp =>
    cases m' with
    | head h' =>
      obtain ⟨hb, hd, -⟩ := Head.bare_inj hm
      refine ⟨_, .opener (hd ▸ hr) (placed_of_frames h hd hp), ?_⟩
      exact congrArg₂ List.cons (by simp [Block.ofHead, hb]) h
    | text | output | closer => cases hm
  | @clause root b more head hdiv ht =>
    cases m' with
    | head h' =>
      obtain ⟨hb, hd, hn⟩ := Head.bare_inj hm
      obtain ⟨root', b', more', rfl, hhead, hterm, hmore⟩ := exists_of_frames_cons h
      have hdb : b.head.descriptor = b'.head.descriptor := (congrArg Head.descriptor hhead :)
      have hdiv' : h'.Divides b'.head := by
        obtain ⟨hrole, hone⟩ := hdiv
        exact ⟨hd ▸ hrole, by rwa [Head.IsOneOf, ← hdb, ← hd]⟩
      have hempty : ∀ (cs : List (Head × List Node)) (c : Head × List Node),
          (cs ++ [c]).isEmpty = false := fun cs c => by cases cs <;> rfl
      refine ⟨_, .clause hdiv' (hterm ▸ ht), ?_⟩
      exact congrArg₂ List.cons (by simp only [hempty, hhead, hd, hn]) hmore
    | text | output | closer => cases hm
  | closer root b more =>
    obtain ⟨root', b', more', rfl, hhead, -, hmore⟩ := exists_of_frames_cons h
    have hn : b.head.name = b'.head.name := (congrArg Head.name hhead :)
    cases m' <;> cases hm
    rw [hn]
    exact ⟨_, .closer root' b' more', by rw [frames_push, frames_push, hmore]⟩

/-- A row of marks that runs through still does with other texts and at other places. -/
theorem Runs.exists_of_alike {f f' g : Forest} {ms ms' : List Mark} (hr : Runs f ms f')
    (h : f.frames = g.frames) (hm : Alike ms ms') :
    ∃ g', Runs g ms' g' ∧ f'.frames = g'.frames := by
  induction hm generalizing f g with
  | nil =>
    cases hr
    exact ⟨g, .nil g, h⟩
  | left s _ ih =>
    cases hr with
    | cons hs hr =>
      cases hs
      exact ih hr (by rw [frames_push, h])
  | right s _ ih =>
    obtain ⟨g', hg, hf⟩ := ih hr (h.trans (frames_push g (.text s)).symm)
    exact ⟨g', .cons (.text g s) hg, hf⟩
  | cons he _ ih =>
    cases hr with
    | cons hs hr =>
      obtain ⟨g₁, hs', h₁⟩ := hs.exists_of_frames h he
      obtain ⟨g', hg, hf⟩ := ih hr h₁
      exact ⟨g', .cons hs' hg, hf⟩

end Forest

/-! ### Texts -/

/-- The text of a row of characters as a node; none of an empty row. -/
def textNodes : List Char → List Node
  | [] => []
  | c :: cs => [.text (String.ofList (c :: cs))]

/-- The text of a row of characters as a mark; none of an empty row. -/
def textMarks : List Char → List Mark
  | [] => []
  | c :: cs => [.text (String.ofList (c :: cs))]

theorem reads_text_iff {registry : Tag.Registry} {mode : Mode} {cs : List Char}
    {marks : List Mark} : Reads registry mode [.text cs] marks ↔ marks = textMarks cs := by
  cases cs with
  | nil => simp [Reads, textMarks]
  | cons c cs =>
    have hne : Item.text (c :: cs) ≠ .text [] := by simp
    rw [Reads, List.filter_singleton, decide_eq_true hne, textMarks]
    constructor
    · rintro (_ | ⟨hm, ⟨⟩⟩)
      cases hm
      rfl
    · rintro rfl
      exact .cons (.text _) .nil

/-- Texts side by side are read one behind the other. -/
theorem reads_texts_iff {registry : Tag.Registry} {mode : Mode} {ws : List (List Char)}
    {marks : List Mark} :
    Reads registry mode (ws.map .text) marks ↔ marks = ws.flatMap textMarks := by
  induction ws generalizing marks with
  | nil => simp [Reads]
  | cons w ws ih =>
    rw [List.map_cons, ← List.singleton_append, reads_append_iff, List.flatMap_cons]
    constructor
    · rintro ⟨before, after, rfl, hb, ha⟩
      rw [reads_text_iff.mp hb, ih.mp ha]
    · rintro rfl
      exact ⟨_, _, rfl, reads_text_iff.mpr rfl, ih.mpr rfl⟩

theorem bareAll_textNodes (cs : List Char) : bareAll (textNodes cs) = textNodes cs := by
  cases cs <;> rfl

/-- Texts side by side are one text when they are bare. -/
theorem bareAll_flatMap_textNodes (ws : List (List Char)) :
    bareAll (ws.flatMap textNodes) = textNodes ws.flatten := by
  induction ws with
  | nil => rfl
  | cons w ws ih =>
    rw [List.flatMap_cons, bareAll_append, ih, bareAll_textNodes, List.flatten_cons]
    cases w with
    | nil => rfl
    | cons c w =>
      cases hv : ws.flatten with
      | nil =>
        rw [List.append_nil]
        rfl
      | cons d v =>
        change [Node.text (String.ofList (c :: w) ++ String.ofList (d :: v))] = _
        rw [← String.ofList_append]
        rfl

namespace Forest

theorem runs_append_iff {f f' : Forest} {ms ns : List Mark} :
    Runs f (ms ++ ns) f' ↔ ∃ g, Runs f ms g ∧ Runs g ns f' := by
  constructor
  · intro h
    induction ms generalizing f with
    | nil => exact ⟨f, .nil f, h⟩
    | cons m ms ih =>
      cases h with
      | cons hs hr =>
        obtain ⟨g, hg, hn⟩ := ih hr
        exact ⟨g, .cons hs hg, hn⟩
  · rintro ⟨g, hm, hn⟩
    exact hm.append hn

theorem runs_textMarks_iff {f g : Forest} (cs : List Char) :
    Runs f (textMarks cs) g ↔ g = f.pushAll (textNodes cs) := by
  cases cs with
  | nil =>
    constructor
    · rintro ⟨⟩
      rfl
    · rintro rfl
      exact .nil _
  | cons c cs =>
    constructor
    · rintro (_ | ⟨⟨⟩, ⟨⟩⟩)
      rfl
    · rintro rfl
      exact (Step.text f _).single

/-- Texts side by side are added one behind the other. -/
theorem runs_texts_iff {f g : Forest} {ws : List (List Char)} :
    Runs f (ws.flatMap textMarks) g ↔ g = f.pushAll (ws.flatMap textNodes) := by
  induction ws generalizing f with
  | nil => exact runs_textMarks_iff []
  | cons w ws ih =>
    simp only [List.flatMap_cons, runs_append_iff, runs_textMarks_iff, exists_eq_left, ih, pushAll,
      List.foldl_append]

end Forest

/-! ### The literal text of a tree -/

/-- The characters of a text. -/
def Mark.chars : Mark → List Char
  | .text s => s.toList
  | _ => []

/-- All literal text of marks, in order. -/
def literal (marks : List Mark) : List Char := marks.flatMap Mark.chars

theorem literal_append (ms ns : List Mark) : literal (ms ++ ns) = literal ms ++ literal ns :=
  List.flatMap_append

theorem literal_cons (m : Mark) (ms : List Mark) : literal (m :: ms) = m.chars ++ literal ms := rfl

theorem chars_bare (m : Mark) : m.bare.chars = m.chars := by
  cases m <;> rfl

theorem literal_congr {ms ms' : List Mark} (h : ms.map Mark.bare = ms'.map Mark.bare) :
    literal ms = literal ms' := by
  have hchars : (fun m : Mark => m.bare.chars) = Mark.chars := funext chars_bare
  simpa only [literal, List.flatMap_map, hchars] using congrArg (List.flatMap Mark.chars) h

theorem literal_join (node : Node) (nodes : List Node) :
    literal (marksOf (join node nodes)) = literal node.marks ++ literal (marksOf nodes) := by
  rw [← literal_append]
  cases node with
  | output | tag => rfl
  | text s =>
    cases nodes with
    | nil => rfl
    | cons node nodes =>
      cases node with
      | output | tag => rfl
      | text t => simp [join, marksOf, Node.marks, literal, Mark.chars]

mutual

theorem literal_marks_bare : ∀ node : Node, literal node.bare.marks = literal node.marks
  | .text _ => rfl
  | .output _ _ => rfl
  | .tag h children clauses => by
    have hd : h.bare.descriptor = h.descriptor := rfl
    simp only [Node.bare, Node.marks, hd]
    cases h.descriptor.role with
    | standalone | clause => rfl
    | opener =>
      simp only [literal_cons, literal_append, literal_bareAll children,
        literal_bareClauses clauses]
      rfl

/-- Bare nodes have the text of the nodes. -/
theorem literal_bareAll : ∀ nodes : List Node,
    literal (marksOf (bareAll nodes)) = literal (marksOf nodes)
  | [] => rfl
  | node :: nodes => by
    rw [bareAll, literal_join, literal_marks_bare node, literal_bareAll nodes, marksOf,
      literal_append]

theorem literal_bareClauses : ∀ clauses : List (Head × List Node),
    literal (clauseMarks (bareClauses clauses)) = literal (clauseMarks clauses)
  | [] => rfl
  | (h, nodes) :: more => by
    simp only [bareClauses, clauseMarks, literal_cons, literal_append, literal_bareAll nodes,
      literal_bareClauses more]
    rfl

end

theorem literal_textMarks (ws : List (List Char)) :
    literal (ws.flatMap textMarks) = ws.flatten := by
  induction ws with
  | nil => rfl
  | cons w ws ih =>
    rw [List.flatMap_cons, literal_append, ih, List.flatten_cons]
    cases w <;> simp [literal, textMarks, Mark.chars]

/-! ### Trees that differ in a run of texts -/

namespace Forest

theorem Alike.refl (ms : List Mark) : Alike ms ms := by
  induction ms with
  | nil => exact .nil
  | cons m ms ih => exact .cons rfl ih

theorem Alike.append {ms ms' ns ns' : List Mark} (h : Alike ms ms') (t : Alike ns ns') :
    Alike (ms ++ ns) (ms' ++ ns') := by
  induction h with
  | nil => exact t
  | left s _ ih => exact .left s ih
  | right s _ ih => exact .right s ih
  | cons hm _ ih => exact .cons hm ih

theorem Alike.of_bare {ms ms' : List Mark} (h : ms.map Mark.bare = ms'.map Mark.bare) :
    Alike ms ms' := by
  induction ms generalizing ms' with
  | nil =>
    rw [List.map_nil, eq_comm, List.map_eq_nil_iff] at h
    exact h ▸ .nil
  | cons m ms ih =>
    obtain ⟨m', ms', rfl, he, hmore⟩ := List.map_eq_cons_iff.mp h.symm
    exact .cons he.symm (ih hmore.symm)

/-- Any texts are like none. -/
theorem Alike.texts (ws ws' : List (List Char)) :
    Alike (ws.flatMap textMarks) (ws'.flatMap textMarks) := by
  have left : ∀ {ms : List Mark} (w : List Char), Alike ms [] → Alike (textMarks w ++ ms) [] :=
    fun w h => by cases w <;> first | exact h | exact .left _ h
  have right : ∀ {ms ms' : List Mark} (w : List Char), Alike ms ms' →
      Alike ms (textMarks w ++ ms') :=
    fun w h => by cases w <;> first | exact h | exact .right _ h
  have hleft : Alike (ws.flatMap textMarks) [] := by
    induction ws with
    | nil => exact .nil
    | cons w ws ih => exact left w ih
  induction ws' with
  | nil => exact hleft
  | cons w ws' ih => exact right w ih

/-- Items that differ in a run of texts and in places have a tree together, and the trees agree when
they are bare if the runs are the same text. -/
theorem ofItems_texts {registry : Tag.Registry} {mode : Mode} (hr : registry.Reachable)
    (hc : registry.FreeClauses) {before after after' : List Item} (ws ws' : List (List Char))
    (ha : after'.map Item.bare = after.map Item.bare) {x : List Node}
    (hx : ofItems registry mode (before ++ (ws.map .text ++ after)) = .ok x) :
    ∃ y, ofItems registry mode (before ++ (ws'.map .text ++ after')) = .ok y ∧
      (bareAll x = bareAll y ↔ ws.flatten = ws'.flatten) := by
  obtain ⟨_, hreads, hrun⟩ := (ofItems_ok_iff_runs hr hc _ _).mp hx
  obtain ⟨ms, _, rfl, hms, hreads⟩ := reads_append_iff.mp hreads
  obtain ⟨_, ns, rfl, hws, hns⟩ := reads_append_iff.mp hreads
  rw [reads_texts_iff] at hws
  subst hws
  obtain ⟨ns', hns', hbare⟩ := hns.place ha
  have hreads' : Reads registry mode (before ++ (ws'.map .text ++ after'))
      (ms ++ (ws'.flatMap textMarks ++ ns')) :=
    reads_append_iff.mpr ⟨_, _, rfl, hms,
      reads_append_iff.mpr ⟨_, _, rfl, reads_texts_iff.mpr rfl, hns'⟩⟩
  -- the marks run through, for they differ in texts and places alone
  have halike : Alike (ms ++ (ws.flatMap textMarks ++ ns)) (ms ++ (ws'.flatMap textMarks ++ ns')) :=
    (Alike.refl ms).append ((Alike.texts ws ws').append (.of_bare hbare.symm))
  obtain ⟨⟨y, stack⟩, hrun', hframes⟩ := hrun.exists_of_alike (g := empty) rfl halike
  obtain rfl : stack = [] := List.map_eq_nil_iff.mp hframes.symm
  refine ⟨y, (ofItems_ok_iff_runs hr hc _ _).mpr ⟨_, hreads', hrun'⟩, fun h => ?_, fun h => ?_⟩
  · -- equal trees have the same text
    have hlit : literal (ms ++ (ws.flatMap textMarks ++ ns)) =
        literal (ms ++ (ws'.flatMap textMarks ++ ns')) := by
      rw [(runs_empty_iff.mp hrun).2, (runs_empty_iff.mp hrun').2, ← literal_bareAll x, h,
        literal_bareAll y]
    simpa only [literal_append, literal_textMarks, literal_congr hbare, List.append_cancel_left_eq,
      List.append_cancel_right_eq] using hlit
  · -- equal texts are the same addition
    obtain ⟨f, hf, hrest⟩ := runs_append_iff.mp hrun
    obtain ⟨_, hg, hend⟩ := runs_append_iff.mp hrest
    obtain ⟨f', hf', hrest'⟩ := runs_append_iff.mp hrun'
    obtain ⟨_, hg', hend'⟩ := runs_append_iff.mp hrest'
    rw [runs_texts_iff] at hg hg'
    subst hg hg'
    have hpush := bare_pushAll (hf.bare hf' rfl rfl)
      (show bareAll (ws.flatMap textNodes) = bareAll (ws'.flatMap textNodes) by
        rw [bareAll_flatMap_textNodes, bareAll_flatMap_textNodes, h])
    exact (bare_eq_iff.mp (hend.bare hend' hpush hbare.symm)).1

end Forest

end TemplateEngine.Markup
