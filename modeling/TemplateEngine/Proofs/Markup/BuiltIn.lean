import TemplateEngine.Proofs.Expr.Balance
import TemplateEngine.Proofs.Markup.BlockStructure

/-!
# Trees of built-in tags

A tag that has been read has a head of the form that its descriptor asks for (`readArgs_form`).  The
built-in tags ask for the forms that their behaviors can use, so in a template of built-in tags
every head fits the behavior of its tag (`allBuiltIn_of_parse`): rendering it meets no head of
another form.  A loop in it has no clause but `else`, and that once (`clauses_of_loop`).
-/

namespace TemplateEngine

namespace Tag

/-! ### Heads in form -/

/-- The heads of a form. -/
inductive Form : Start → Args → Prop where
  | none : Form .none .none
  | expr (e : Expr) : Form .expr (.expr e)
  | varName (name : String) : Form .varName (.varName name)
  | exprList (es : List Expr) : Form .exprList (.exprList es)
  | assign (name : String) (e : Expr) : Form .assign (.assign name e)
  | forLoop (head : LoopHead) : Form .forLoop (.forLoop head)
  | raw (text : String) : Form .raw (.raw text)

/-- The built-in behaviors of tags that are no clauses, with the heads that they can use. -/
inductive Fits : Behavior → Args → Prop where
  | condition (negated : Bool) (e : Expr) : Fits (.condition negated) (.expr e)
  | choice (e : Expr) : Fits .choice (.expr e)
  | forLoop (head : LoopHead) : Fits .forLoop (.forLoop head)
  | whileLoop (e : Expr) : Fits .whileLoop (.expr e)
  | control (signal : Signal) : Fits (.control signal) .none
  | assign (name : String) (e : Expr) : Fits .assign (.assign name e)
  | capture (name : String) : Fits .capture (.varName name)
  | echo (e : Expr) : Fits .echo (.expr e)
  | counter (step : Int64) (name : String) : Fits (.counter step) (.varName name)

theorem Fits.ne_host {b : Behavior} {args : Args} (h : Fits b args) (f : View → Render Signal) :
    b ≠ .host f := by
  rintro rfl
  cases h

/-- A built-in tag with a head in its form: a clause, or a tag whose behavior can use the head. -/
def InUse (d : Descriptor) (args : Args) : Prop :=
  match d.role with
  | .clause => d.behavior = .clause
  | .opener | .standalone => Fits d.behavior args

theorem inUse_of_get? {name : String} {mode : Mode} {d : Descriptor} {args : Args}
    (h : Registry.standard.get? name mode = some d) (ha : Form d.start args) : InUse d args := by
  obtain ⟨mode', b, hb, n, hn, he⟩ := Registry.mem_standard (Registry.mem_of_get? h)
  cases he
  simp only [Registry.builtins, List.mem_cons, List.not_mem_nil, or_false] at hb
  rcases hb with rfl | rfl | rfl | rfl | rfl | rfl | rfl | rfl | rfl | rfl | rfl | rfl | rfl |
    rfl | rfl <;>
    cases ha <;> first | exact rfl | constructor

end Tag

namespace Markup

theorem Parse.form_args {mode : Mode} {n : Nat} {start : Tag.Start} {s t : TokenStream}
    {args : Tag.Args} (h : Parse.args mode n start s = .ok (args, t)) (hs : start ≠ .raw) :
    Tag.Form start args := by
  cases start with
  | expr =>
    obtain ⟨⟨e, s'⟩, -, he⟩ := bind_eq_ok_iff.mp h
    cases he
    exact .expr e
  | varName =>
    obtain ⟨⟨name, s'⟩, -, he⟩ := bind_eq_ok_iff.mp h
    cases he
    exact .varName name
  | exprList =>
    obtain ⟨⟨es, s'⟩, -, he⟩ := bind_eq_ok_iff.mp h
    cases he
    exact .exprList es
  | assign =>
    obtain ⟨⟨name, s₁⟩, -, h⟩ := bind_eq_ok_iff.mp h
    obtain ⟨⟨_, s₂⟩, -, h⟩ := bind_eq_ok_iff.mp h
    obtain ⟨⟨e, s₃⟩, -, he⟩ := bind_eq_ok_iff.mp h
    cases he
    exact .assign name e
  | forLoop =>
    obtain ⟨⟨head, s'⟩, -, he⟩ := bind_eq_ok_iff.mp h
    cases he
    exact .forLoop head
  | none =>
    cases h
    exact .none
  | raw => exact absurd rfl hs

/-- A head that is read has the form that it is read in. -/
theorem readArgs_form {mode : Mode} {start : Tag.Start} {name : String} {head : List Char}
    {base : Nat} {args : Tag.Args} (h : readArgs mode start name head base = .ok args) :
    Tag.Form start args := by
  have hwhole : ∀ start, start ≠ .raw →
      (Parse.args mode (head.length + 1) start).whole (String.ofList head) base = .ok args →
      Tag.Form start args := by
    intro start hs h
    obtain ⟨ts, t, -, hp, -⟩ := TemplateEngine.Parse.whole_eq_ok_iff.mp h
    exact Parse.form_args hp hs
  cases start with
  | raw =>
    cases h
    exact .raw _
  | none =>
    unfold readArgs at h
    dsimp only at h
    split at h
    · cases h
      exact .none
    · obtain ⟨ts, -, h⟩ := bind_eq_ok_iff.mp h
      cases h
  | expr | varName | exprList | assign | forLoop =>
    unfold readArgs at h
    dsimp only at h
    split at h
    · cases h
    · exact hwhole _ nofun h

/-! ### Trees -/

mutual

/-- The tags in the node are built in and their heads fit them. -/
def Node.BuiltIn : Node → Prop
  | .text _ => True
  | .output _ _ => True
  | .tag h children clauses =>
    Tag.Fits h.descriptor.behavior h.args ∧ AllBuiltIn children ∧ ClausesBuiltIn clauses

/-- The tags in the nodes are. -/
def AllBuiltIn : List Node → Prop
  | [] => True
  | node :: nodes => node.BuiltIn ∧ AllBuiltIn nodes

/-- The clauses and the tags in them are. -/
def ClausesBuiltIn : List (Head × List Node) → Prop
  | [] => True
  | (h, nodes) :: more =>
    h.descriptor.behavior = .clause ∧ AllBuiltIn nodes ∧ ClausesBuiltIn more

end

/-- The rows of nodes in a tree: the tree itself, and the bodies and clauses of the tags in it. -/
inductive RowIn (nodes : List Node) : List Node → Prop where
  | tree : RowIn nodes nodes
  | body {row children : List Node} {h : Head} {clauses : List (Head × List Node)}
      (hr : RowIn nodes row) (hn : .tag h children clauses ∈ row) : RowIn nodes children
  | clause {row children rest : List Node} {h k : Head} {clauses : List (Head × List Node)}
      (hr : RowIn nodes row) (hn : .tag h children clauses ∈ row) (hc : (k, rest) ∈ clauses) :
      RowIn nodes rest

theorem AllBuiltIn.of_mem {node : Node} : ∀ {nodes : List Node}, AllBuiltIn nodes →
    node ∈ nodes → node.BuiltIn
  | _ :: _, ⟨hn, hs⟩, h => by
    rcases List.mem_cons.mp h with rfl | h
    · exact hn
    · exact hs.of_mem h

theorem ClausesBuiltIn.of_mem {k : Head} {rest : List Node} :
    ∀ {clauses : List (Head × List Node)}, ClausesBuiltIn clauses → (k, rest) ∈ clauses →
      AllBuiltIn rest
  | (_, _) :: _, ⟨_, hn, hs⟩, h => by
    rcases List.mem_cons.mp h with h | h
    · cases h
      exact hn
    · exact hs.of_mem h

/-- In a tree of built-in tags every row is one. -/
theorem RowIn.allBuiltIn {nodes row : List Node} (h : RowIn nodes row) (hn : AllBuiltIn nodes) :
    AllBuiltIn row := by
  induction h with
  | tree => exact hn
  | body _ hmem ih => exact (ih.of_mem hmem).2.1
  | clause _ hmem hc ih => exact (ih.of_mem hmem).2.2.of_mem hc

/-- All heads among the marks are those of built-in tags, in their forms. -/
def HeadsInUse (marks : List Mark) : Prop :=
  ∀ h, .head h ∈ marks → Tag.InUse h.descriptor h.args

theorem headsInUse_append {ms ns : List Mark} :
    HeadsInUse (ms ++ ns) ↔ HeadsInUse ms ∧ HeadsInUse ns := by
  simp only [HeadsInUse, List.mem_append]
  exact ⟨fun h => ⟨fun x hx => h x (.inl hx), fun x hx => h x (.inr hx)⟩,
    fun ⟨h₁, h₂⟩ x hx => hx.elim (h₁ x) (h₂ x)⟩

theorem headsInUse_cons {h : Head} {ms : List Mark} :
    HeadsInUse (.head h :: ms) ↔ Tag.InUse h.descriptor h.args ∧ HeadsInUse ms := by
  simp [HeadsInUse]

mutual

theorem Node.WellNested.builtIn {bodies : List Head} : ∀ {node : Node},
    node.WellNested bodies → HeadsInUse node.marks → node.BuiltIn
  | .text _, _, _ => trivial
  | .output _ _, _, _ => trivial
  | .tag h children clauses, ⟨_, hw⟩, hs => by
    cases hr : h.descriptor.role with
    | clause => simp [hr] at hw
    | standalone =>
      simp only [hr] at hw
      obtain ⟨rfl, rfl⟩ := hw
      have hh := hs h (by simp [Node.marks, hr])
      simp only [Tag.InUse, hr] at hh
      exact ⟨hh, trivial, trivial⟩
    | opener =>
      simp only [hr] at hw
      simp only [Node.marks, hr] at hs
      obtain ⟨hh, hs⟩ := headsInUse_cons.mp hs
      obtain ⟨hchildren, hs⟩ := headsInUse_append.mp hs
      obtain ⟨hclauses, -⟩ := headsInUse_append.mp hs
      simp only [Tag.InUse, hr] at hh
      exact ⟨hh, AllWellNested.builtIn hw.1 hchildren, ClausesWellNested.builtIn hw.2 hclauses⟩

theorem AllWellNested.builtIn {bodies : List Head} : ∀ {nodes : List Node},
    AllWellNested bodies nodes → HeadsInUse (marksOf nodes) → AllBuiltIn nodes
  | [], _, _ => trivial
  | _ :: _, ⟨hn, hw⟩, hs => by
    obtain ⟨h₁, h₂⟩ := headsInUse_append.mp hs
    exact ⟨hn.builtIn h₁, AllWellNested.builtIn hw h₂⟩

theorem ClausesWellNested.builtIn {bodies : List Head} {block : Head} :
    ∀ {clauses : List (Head × List Node)}, ClausesWellNested bodies block clauses →
      HeadsInUse (clauseMarks clauses) → ClausesBuiltIn clauses
  | [], _, _ => trivial
  | (_, _) :: _, ⟨hd, _, hn, hw⟩, hs => by
    obtain ⟨hh, hs⟩ := headsInUse_cons.mp hs
    obtain ⟨h₁, h₂⟩ := headsInUse_append.mp hs
    rw [Tag.InUse, hd.1] at hh
    exact ⟨hh, AllWellNested.builtIn hn h₁, ClausesWellNested.builtIn hw h₂⟩

end

/-- A template of built-in tags is a tree of built-in tags whose heads fit them. -/
theorem allBuiltIn_of_parse {registry : Tag.Registry} (hr : registry.Reachable)
    (hs : ∀ name mode d, registry.get? name mode = some d →
      Tag.Registry.standard.get? name mode = some d)
    {mode : Mode} {source : String} {nodes : List Node}
    (hp : parse registry mode source = .ok nodes) : AllBuiltIn nodes := by
  have hc : registry.FreeClauses :=
    fun name mode d hd => Tag.Registry.freeClauses_standard name mode d (hs name mode d hd)
  obtain ⟨hw, items, hm⟩ := Forest.reads_of_parse hr hc hp
  refine hw.builtIn fun h hh => ?_
  obtain ⟨item, -, hread⟩ := hm.exists_of_mem hh
  cases hread with
  | head _ hd ha => exact Tag.inUse_of_get? (hs _ _ _ hd) (readArgs_form ha)

/-! ### Clauses of loops -/

theorem AllWellNested.of_mem {bodies : List Head} {node : Node} :
    ∀ {nodes : List Node}, AllWellNested bodies nodes → node ∈ nodes → node.WellNested bodies
  | _ :: _, ⟨hn, hw⟩, h => by
    rcases List.mem_cons.mp h with rfl | h
    · exact hn
    · exact hw.of_mem h

theorem ClausesWellNested.of_mem {bodies : List Head} {block k : Head} {rest : List Node} :
    ∀ {clauses : List (Head × List Node)}, ClausesWellNested bodies block clauses →
      (k, rest) ∈ clauses → AllWellNested bodies rest
  | (_, _) :: _, ⟨_, _, hn, hw⟩, h => by
    rcases List.mem_cons.mp h with h | h
    · cases h
      exact hn
    · exact hw.of_mem h

theorem marks_subset_of_mem {nodes : List Node} {node : Node} (h : node ∈ nodes) :
    node.marks ⊆ marksOf nodes := by
  obtain ⟨before, after, rfl⟩ := List.append_of_mem h
  rw [marksOf_append, marksOf]
  exact fun m hm => List.mem_append_right _ (List.mem_append_left _ hm)

theorem clauseMarks_subset_of_mem {clauses : List (Head × List Node)} {k : Head}
    {rest : List Node} (h : (k, rest) ∈ clauses) :
    .head k :: marksOf rest ⊆ clauseMarks clauses := by
  obtain ⟨before, after, rfl⟩ := List.append_of_mem h
  rw [clauseMarks_append, clauseMarks, ← List.cons_append]
  exact fun m hm => List.mem_append_right _ (List.mem_append_left _ hm)

theorem head_mem_marks (h : Head) (children : List Node) (clauses : List (Head × List Node)) :
    .head h ∈ (Node.tag h children clauses).marks := by
  rw [Node.marks]
  split <;> simp

/-- The parts of a well-nested tag are well nested, and their marks are among those of the tag. -/
theorem Node.WellNested.parts {bodies : List Head} {h : Head} {children : List Node}
    {clauses : List (Head × List Node)} (hw : (Node.tag h children clauses).WellNested bodies) :
    (∃ inner, AllWellNested inner children) ∧ ClausesWellNested bodies h clauses ∧
      marksOf children ⊆ (Node.tag h children clauses).marks ∧
      clauseMarks clauses ⊆ (Node.tag h children clauses).marks := by
  obtain ⟨-, hw⟩ := hw
  cases hr : h.descriptor.role with
  | clause => simp [hr] at hw
  | standalone =>
    simp only [hr] at hw
    obtain ⟨rfl, rfl⟩ := hw
    exact ⟨⟨[], trivial⟩, trivial, List.nil_subset _, List.nil_subset _⟩
  | opener =>
    simp only [hr] at hw
    simp only [Node.marks, hr]
    refine ⟨⟨_, hw.1⟩, hw.2, fun m hm => ?_, fun m hm => ?_⟩
    · exact List.mem_cons_of_mem _ (List.mem_append_left _ hm)
    · exact List.mem_cons_of_mem _ (List.mem_append_right _ (List.mem_append_left _ hm))

/-- Every row in a well-nested tree is well nested, and its marks are among those of the tree. -/
theorem RowIn.wellNested {nodes row : List Node} (h : RowIn nodes row) {bodies : List Head}
    (hn : AllWellNested bodies nodes) :
    (∃ inner, AllWellNested inner row) ∧ marksOf row ⊆ marksOf nodes := by
  induction h with
  | tree => exact ⟨⟨bodies, hn⟩, List.Subset.refl _⟩
  | body _ hmem ih =>
    obtain ⟨⟨inner, hrow⟩, hmarks⟩ := ih
    obtain ⟨hchildren, -, hparts, -⟩ := (hrow.of_mem hmem).parts
    have hnode := List.Subset.trans (marks_subset_of_mem hmem) hmarks
    exact ⟨hchildren, List.Subset.trans hparts hnode⟩
  | clause _ hmem hc ih =>
    obtain ⟨⟨inner, hrow⟩, hmarks⟩ := ih
    obtain ⟨-, hclauses, -, hparts⟩ := (hrow.of_mem hmem).parts
    have hnode := List.Subset.trans (marks_subset_of_mem hmem) hmarks
    have hrest := List.subset_of_cons_subset (clauseMarks_subset_of_mem hc)
    exact ⟨⟨inner, hclauses.of_mem hc⟩, List.Subset.trans hrest (List.Subset.trans hparts hnode)⟩

/-- All heads among the marks have the descriptors that the registry has under their names. -/
def HeadsNamed (registry : Tag.Registry) (mode : Mode) (marks : List Mark) : Prop :=
  ∀ h, .head h ∈ marks → registry.get? h.name mode = some h.descriptor

theorem Reads.headsNamed {registry : Tag.Registry} {mode : Mode} {items : List Item}
    {marks : List Mark} (hm : Reads registry mode items marks) :
    HeadsNamed registry mode marks := by
  intro h hh
  obtain ⟨item, -, hr⟩ := hm.exists_of_mem hh
  cases hr with
  | head _ hd _ => exact hd

end Markup

/-! The only clause that a loop can have is `else`. -/

namespace Tag

theorem names_of_loop {name : String} {mode : Mode} {d : Descriptor}
    (h : Registry.standard.get? name mode = some d) (hn : name ∈ ["for", "while"]) :
    d.names = [name] := by
  obtain ⟨mode', b, hb, n, hmem, he⟩ := Registry.mem_standard (Registry.mem_of_get? h)
  have hall : ∀ mode, ∀ b ∈ Registry.builtins mode, ∀ n ∈ b.1, n ∈ ["for", "while"] →
      b.1 = [n] := by
    intro mode
    cases mode <;> decide
  cases he
  exact hall mode b hb name hmem hn

theorem else_of_parents {name loop : String} {mode : Mode} {d : Descriptor}
    (h : Registry.standard.get? name mode = some d) (hl : loop ∈ ["for", "while"])
    (hp : loop ∈ d.parents) : name = "else" ∧ d.terminal = true := by
  obtain ⟨mode', b, hb, n, hmem, he⟩ := Registry.mem_standard (Registry.mem_of_get? h)
  have hall : ∀ mode, ∀ b ∈ Registry.builtins mode, ∀ n ∈ b.1, ∀ loop ∈ ["for", "while"],
      loop ∈ b.2.parents → n = "else" ∧ b.2.terminal = true := by
    intro mode
    cases mode <;> decide
  cases he
  exact hall mode b hb name hmem loop hl hp

end Tag

namespace Markup

/-- In a well-nested loop of the built-in registry there is no clause, or one, which is `else`. -/
theorem ClausesWellNested.of_loop {mode : Mode} {bodies : List Head} {h : Head}
    {clauses : List (Head × List Node)} (hw : ClausesWellNested bodies h clauses)
    (hh : Tag.Registry.standard.get? h.name mode = some h.descriptor)
    (hl : h.name ∈ ["for", "while"]) (hc : HeadsNamed .standard mode (clauseMarks clauses)) :
    clauses = [] ∨ ∃ k rest, clauses = [(k, rest)] ∧ k.name = "else" := by
  cases clauses with
  | nil => exact .inl rfl
  | cons c more =>
    obtain ⟨k, rest⟩ := c
    obtain ⟨⟨-, n, hn, hp⟩, hterminal, -, -⟩ := hw
    rw [Tag.names_of_loop hh hl, List.mem_singleton] at hn
    subst hn
    obtain ⟨hname, ht⟩ := Tag.else_of_parents (hc k (by simp [clauseMarks])) hl hp
    exact .inr ⟨k, rest, by rw [hterminal ht], hname⟩

/-- A loop in a template of the built-in registry has no clause but `else`, and that once. -/
theorem clauses_of_loop {mode : Mode} {source : String} {nodes row children : List Node}
    {h : Head} {clauses : List (Head × List Node)} (hp : parse .standard mode source = .ok nodes)
    (hrow : RowIn nodes row) (hn : .tag h children clauses ∈ row)
    (hl : h.name ∈ ["for", "while"]) :
    clauses = [] ∨ ∃ k rest, clauses = [(k, rest)] ∧ k.name = "else" := by
  obtain ⟨hw, items, hm⟩ :=
    Forest.reads_of_parse .standard Tag.Registry.freeClauses_standard hp
  obtain ⟨⟨inner, hwell⟩, hmarks⟩ := hrow.wellNested hw
  obtain ⟨-, hclauses, -, hparts⟩ := (hwell.of_mem hn).parts
  have hnode := List.Subset.trans (marks_subset_of_mem hn) hmarks
  exact hclauses.of_loop (hm.headsNamed h (hnode (head_mem_marks h children clauses))) hl
    fun k hk => hm.headsNamed k (hnode (hparts hk))

end Markup

end TemplateEngine
