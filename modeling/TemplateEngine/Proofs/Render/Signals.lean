import TemplateEngine.Proofs.Markup.BlockStructure
import TemplateEngine.Proofs.Render.Runs
import TemplateEngine.Template

/-!
# Signals of loops

`break` and `continue` tell the loop around them something.  A loop keeps the signals of its body
to itself: what it passes on comes from its `else` clause (`run_loop`).  In a well-nested tree of
built-in tags every `break` stands in the body of a loop, so a node outside of all loops gives no
signal (`quiet_node`), and a template that has been read ends with none (`renderNodes_normal`).
-/

namespace TemplateEngine

namespace Render

/-- The rendering gives no signal. -/
abbrev Quiet (r : Render Signal) : Prop := r.Yields (· = .normal)

end Render

namespace Tag
open Render

/-! ### Behaviors -/

theorem quiet_runFirst {clauses : List ClauseView} (select : ClauseView → Render Bool)
    (h : ∀ c ∈ clauses, c.run.Quiet) : (runFirst clauses select).Quiet := by
  induction clauses with
  | nil => exact yields_pure rfl
  | cons c more ih =>
    rw [runFirst]
    refine yields_bind fun chosen => ?_
    split
    · exact h c (by simp)
    · exact ih fun d hd => h d (by simp [hd])

theorem quiet_runElse {v : View} (h : ∀ c ∈ v.clauses, c.run.Quiet) : (runElse v).Quiet := by
  unfold runElse
  split
  · next c more hc => exact h c (by simp [hc])
  · exact yields_pure rfl

/-- What a loop over items tells the loop around it comes from its clause. -/
theorem runFor_cases {v : View} {host : Host} {s s' : RenderState} {signal : Signal}
    (h : (runFor v).runFrom host s = (.ok signal, s')) :
    signal = .normal ∨ ∃ s₁, (runElse v).runFrom host s₁ = (.ok signal, s') := by
  unfold runFor at h
  split at h
  · obtain ⟨items, s₁, -, h⟩ := runFrom_bind_ok h
    obtain ⟨mode, s₂, -, h⟩ := runFrom_bind_ok h
    obtain ⟨broke, s₃, -, h⟩ := runFrom_bind_ok h
    -- whichever way the dialect decides for the clause
    have either : ∀ b : Bool,
        (if b then runElse v else pure Signal.normal).runFrom host s₃ = (.ok signal, s') →
          signal = .normal ∨ ∃ s₁, (runElse v).runFrom host s₁ = (.ok signal, s') := by
      intro b h
      cases b with
      | true => exact .inr ⟨s₃, h⟩
      | false =>
        cases h
        exact .inl rfl
    exact either _ h
  · cases h

/-- What a `while` loop tells the loop around it comes from its clause. -/
theorem runWhile_cases {v : View} {host : Host} {s s' : RenderState} {signal : Signal}
    (h : (runWhile v).runFrom host s = (.ok signal, s')) :
    signal = .normal ∨ ∃ s₁, (runElse v).runFrom host s₁ = (.ok signal, s') := by
  unfold runWhile at h
  obtain ⟨cond, s₁, -, h⟩ := runFrom_bind_ok h
  obtain ⟨host', s₂, -, h⟩ := runFrom_bind_ok h
  obtain ⟨broke, s₃, -, h⟩ := runFrom_bind_ok h
  split at h
  · cases h
    exact .inl rfl
  · exact .inr ⟨s₃, h⟩

/-- The behavior is that of a loop. -/
def Behavior.IsLoop (b : Behavior) : Prop := b = .forLoop ∨ b = .whileLoop

theorem Behavior.IsLoop.run_cases {b : Behavior} (hb : b.IsLoop) {v : View} {host : Host}
    {s s' : RenderState} {signal : Signal} (h : (b.run v).runFrom host s = (.ok signal, s')) :
    signal = .normal ∨ ∃ s₁, (runElse v).runFrom host s₁ = (.ok signal, s') := by
  rcases hb with rfl | rfl
  · exact runFor_cases h
  · exact runWhile_cases h

/-- A built-in behavior gives no signal of its own but for `break` and `continue`, and a loop none
of its body. -/
theorem quiet_run {b : Behavior} {v : View} (hhost : ∀ f, b ≠ .host f)
    (hcontrol : ∀ signal, b ≠ .control signal) (hbody : ¬ b.IsLoop → v.body.Quiet)
    (hclauses : ∀ c ∈ v.clauses, c.run.Quiet) : (b.run v).Quiet := by
  have hblock : ¬ b.IsLoop → v.block.Quiet := fun h => (hbody h).framed
  cases b with
  | condition negated =>
    refine yields_bind fun e => yields_bind fun holds => ?_
    split
    · exact hblock (by simp [Behavior.IsLoop])
    · exact quiet_runFirst _ hclauses
  | clause => exact hblock (by simp [Behavior.IsLoop])
  | choice => exact yields_bind fun e => yields_bind fun subject => quiet_runFirst _ hclauses
  | forLoop =>
    -- nothing is known of the body here
    intro host s signal s' h
    rcases runFor_cases h with h | ⟨s₁, h⟩
    · exact h
    · exact quiet_runElse hclauses _ _ _ _ h
  | whileLoop =>
    intro host s signal s' h
    rcases runWhile_cases h with h | ⟨s₁, h⟩
    · exact h
    · exact quiet_runElse hclauses _ _ _ _ h
  | control signal => exact absurd rfl (hcontrol signal)
  | assign =>
    simp only [Behavior.run, runAssign]
    split
    · exact yields_bind fun value => yields_bind fun _ => yields_pure rfl
    · exact yields_fault _ _
  | capture =>
    refine yields_bind fun name => ?_
    refine Yields.bind (hblock (by simp [Behavior.IsLoop])).aside fun (signal, text) hs => ?_
    exact yields_bind fun _ => yields_pure hs
  | echo =>
    exact yields_bind fun e => yields_bind fun value => yields_bind fun _ => yields_pure rfl
  | counter step =>
    exact yields_bind fun name => yields_bind fun before => yields_bind fun _ =>
      yields_bind fun _ => yields_pure rfl
  | host run => exact absurd rfl (hhost run)

/-! ### Built-in tags -/

namespace Descriptor

/-- What the reader of templates has to know of a built-in tag for signals to stay in loops. -/
structure IsStandard (d : Descriptor) : Prop where
  notHost : ∀ f, d.behavior ≠ .host f
  control : ∀ signal, d.behavior = .control signal → d.inside = ["for", "while"]
  /-- Only loops have the names of loops. -/
  loop : (∃ n ∈ d.names, n ∈ ["for", "while"]) → d.behavior.IsLoop
  clause : d.role = .clause → d.behavior = .clause

end Descriptor

/-- Every tag of the built-in registry is such a tag. -/
theorem isStandard_of_get? {name : String} {mode : Mode} {d : Descriptor}
    (h : Registry.standard.get? name mode = some d) : d.IsStandard := by
  obtain ⟨mode', b, hb, n, hn, he⟩ := Registry.mem_standard (Registry.mem_of_get? h)
  cases he
  have hall : ∀ b ∈ Registry.builtins mode,
      ({ b.2 with isProtected := true, names := b.1, mode } : Descriptor).IsStandard := by
    intro b hb
    simp only [Registry.builtins, List.mem_cons, List.not_mem_nil, or_false] at hb
    rcases hb with rfl | rfl | rfl | rfl | rfl | rfl | rfl | rfl | rfl | rfl | rfl | rfl | rfl |
      rfl | rfl
    all_goals
      constructor
      · exact nofun
      · simp [Descriptor.ofBehavior]
      · cases mode <;> simp [Descriptor.ofBehavior, Behavior.IsLoop]
      · simp [Descriptor.ofBehavior, Descriptor.role]
  exact hall b hb

end Tag

namespace Markup
open Render

/-! ### Well-nested trees -/

/-- The head is one of a loop. -/
def Head.IsLoop (h : Head) : Prop := h.IsOneOf ["for", "while"]

/-- All heads among the marks are those of built-in tags. -/
def AllStandard (marks : List Mark) : Prop := ∀ h, .head h ∈ marks → h.descriptor.IsStandard

theorem allStandard_append {ms ns : List Mark} :
    AllStandard (ms ++ ns) ↔ AllStandard ms ∧ AllStandard ns := by
  simp only [AllStandard, List.mem_append]
  exact ⟨fun h => ⟨fun x hx => h x (.inl hx), fun x hx => h x (.inr hx)⟩,
    fun ⟨h₁, h₂⟩ x hx => hx.elim (h₁ x) (h₂ x)⟩

theorem allStandard_cons {h : Head} {ms : List Mark} :
    AllStandard (.head h :: ms) ↔ h.descriptor.IsStandard ∧ AllStandard ms := by
  simp [AllStandard]

theorem quiet_andThen {first rest : Render Signal} (hf : first.Quiet) (hr : rest.Quiet) :
    (andThen first rest).Quiet := by
  refine Yields.bind hf fun signal hs => ?_
  subst hs
  exact hr

/-- A tag that no body of a loop holds is not `break` or `continue`. -/
theorem not_control {h : Head} {bodies : List Head} (hs : h.descriptor.IsStandard)
    (hp : h.Placed bodies) (hb : ∀ b ∈ bodies, ¬ b.IsLoop) (signal : Signal) :
    h.descriptor.behavior ≠ .control signal := by
  intro hc
  have hi := hs.control signal hc
  rcases hp with hp | ⟨b, hm, ho⟩
  · rw [hp] at hi
    cases hi
  · rw [hi] at ho
    exact hb b hm ho

mutual

/-- A well-nested node of built-in tags that stands in no body of a loop gives no signal. -/
theorem quiet_node {bodies : List Head} (hb : ∀ b ∈ bodies, ¬ b.IsLoop) : ∀ {node : Node},
    node.WellNested bodies → AllStandard node.marks → node.run.Quiet
  | .text s, _, _ => yields_bind fun _ => yields_pure rfl
  | .output e offset, _, _ => yields_bind fun v => yields_bind fun _ => yields_pure rfl
  | .tag h children clauses, ⟨hp, hw⟩, hs => by
    cases hr : h.descriptor.role with
    | clause => simp [hr] at hw
    | standalone =>
      simp only [hr] at hw
      obtain ⟨rfl, rfl⟩ := hw
      have hh : h.descriptor.IsStandard := hs h (by simp [Node.marks, hr])
      refine Yields.located (Tag.quiet_run hh.notHost (not_control hh hp hb) ?_ ?_) _
      · exact fun _ => yields_pure rfl
      · simp [clauseViews]
    | opener =>
      simp only [hr] at hw
      simp only [Node.marks, hr] at hs
      obtain ⟨hh, hs⟩ := allStandard_cons.mp hs
      obtain ⟨hchildren, hs⟩ := allStandard_append.mp hs
      obtain ⟨hclauses, -⟩ := allStandard_append.mp hs
      refine Yields.located (Tag.quiet_run hh.notHost (not_control hh hp hb) ?_ ?_) _
      · -- the body of a block that is no loop still stands in no loop
        intro hl
        have hbodies : ∀ b ∈ h :: bodies, ¬ b.IsLoop := by
          rintro b (_ | ⟨_, hm⟩)
          · exact fun hloop => hl (hh.loop hloop)
          · exact hb b hm
        exact quiet_runNodes hbodies hw.1 hchildren
      · exact quiet_clauseViews hb hw.2 hclauses

/-- A row of such nodes gives no signal. -/
theorem quiet_runNodes {bodies : List Head} (hb : ∀ b ∈ bodies, ¬ b.IsLoop) :
    ∀ {nodes : List Node}, AllWellNested bodies nodes → AllStandard (marksOf nodes) →
      (runNodes nodes).Quiet
  | [], _, _ => yields_pure rfl
  | node :: nodes, ⟨hn, hw⟩, hs => by
    obtain ⟨h₁, h₂⟩ := allStandard_append.mp hs
    exact quiet_andThen (quiet_node hb hn h₁) (quiet_runNodes hb hw h₂)

/-- The clauses of such a block give no signals. -/
theorem quiet_clauseViews {bodies : List Head} (hb : ∀ b ∈ bodies, ¬ b.IsLoop) {block : Head} :
    ∀ {clauses : List (Head × List Node)}, ClausesWellNested bodies block clauses →
      AllStandard (clauseMarks clauses) → ∀ c ∈ clauseViews clauses, c.run.Quiet
  | [], _, _ => by simp [clauseViews]
  | (h, nodes) :: clauses, ⟨hd, _, hn, hw⟩, hs => by
    obtain ⟨hh, hs⟩ := allStandard_cons.mp hs
    obtain ⟨h₁, h₂⟩ := allStandard_append.mp hs
    have hbehavior := hh.clause hd.1
    intro c hc
    rcases List.mem_cons.mp hc with rfl | hc
    · refine Yields.located (Tag.quiet_run ?_ ?_ (fun _ => quiet_runNodes hb hn h₁) ?_) _
      · simp [hbehavior]
      · simp [hbehavior]
      · simp
    · exact quiet_clauseViews hb hw h₂ c hc

end

/-- A loop gives a signal only when its first clause does, and that signal. -/
theorem run_loop {h : Head} (hl : h.descriptor.behavior.IsLoop) {children : List Node}
    {clauses : List (Head × List Node)} {host : Host} {s s' : RenderState} {signal : Signal}
    (hr : (Node.tag h children clauses).run.runFrom host s = (.ok signal, s'))
    (hs : signal ≠ .normal) :
    ∃ c more s₁, clauses = c :: more ∧
      (c.1.run (runNodes c.2) []).runFrom host s₁ = (.ok signal, s') := by
  rcases hl.run_cases (runFrom_located_ok hr) with hn | ⟨s₁, he⟩
  · exact absurd hn hs
  · cases clauses with
    | nil =>
      cases he
      exact absurd rfl hs
    | cons c more => exact ⟨c, more, s₁, rfl, he⟩

/-- A template of built-in tags gives no signal. -/
theorem parse_quiet {registry : Tag.Registry} (hr : registry.Reachable)
    (hs : ∀ name mode d, registry.get? name mode = some d →
      Tag.Registry.standard.get? name mode = some d)
    {mode : Mode} {source : String} {nodes : List Node}
    (hp : parse registry mode source = .ok nodes) : (runNodes nodes).Quiet := by
  have hc : registry.FreeClauses :=
    fun name mode d hd => Tag.Registry.freeClauses_standard name mode d (hs name mode d hd)
  obtain ⟨hw, items, hm⟩ := Forest.reads_of_parse hr hc hp
  have hbodies : ∀ b ∈ ([] : List Head), ¬ b.IsLoop := by simp
  refine quiet_runNodes hbodies hw fun h hh => ?_
  -- the marks of the tree are those of the items, so the registry has every descriptor in it
  obtain ⟨name, hd⟩ := hm.get?_of_mem hh
  exact Tag.isStandard_of_get? (hs _ _ _ hd)

end Markup

namespace Template
open Markup

/-- **Signals stay in loops.**  A template of built-in tags ends with an error or without a signal,
and a loop of it passes on no signal of its body, only one of its `else` clause. -/
theorem renderNodes_normal {registry : Tag.Registry} (hr : registry.Reachable)
    (hs : ∀ name mode d, registry.get? name mode = some d →
      Tag.Registry.standard.get? name mode = some d)
    {mode : Mode} {source : String} {nodes : List Node}
    (hp : parse registry mode source = .ok nodes) (host : Host) :
    (∀ globals, (∃ stop, renderNodes host mode globals nodes = .error stop) ∨
      ∃ out, renderNodes host mode globals nodes = .ok (out, .normal)) ∧
    ∀ (h : Head) (children : List Node) (clauses : List (Head × List Node)),
      h.descriptor.behavior.IsLoop → ∀ s signal s',
      (Node.tag h children clauses).run.runFrom host s = (.ok signal, s') → signal ≠ .normal →
      ∃ c more s₁, clauses = c :: more ∧
        (c.1.run (runNodes c.2) []).runFrom host s₁ = (.ok signal, s') := by
  refine ⟨fun globals => ?_, fun h children clauses hl s signal s' hrun hne => run_loop hl hrun hne⟩
  have hq := parse_quiet hr hs hp
  unfold renderNodes
  cases hrun : (runNodes nodes).runFrom host ⟨.ofGlobals mode globals, ""⟩ with
  | mk result s =>
    cases result with
    | error stop => exact .inl ⟨stop, rfl⟩
    | ok signal =>
      obtain rfl : signal = .normal := hq _ _ _ _ hrun
      exact .inr ⟨s.out, rfl⟩

/-- A `break` in an `if` in a loop. -/
theorem renderNodes_normal_break : ∃ nodes,
    parse .standard .python
      "\x7b% while x %\x7d\x7b% if y %\x7d\x7b% break %\x7d\x7b% endif %\x7d\x7b% endwhile %\x7d" =
        .ok nodes ∧
      ∀ host globals, (∃ stop, renderNodes host .python globals nodes = .error stop) ∨
        ∃ out, renderNodes host .python globals nodes = .ok (out, .normal) := by
  have hok : (parse .standard .python
      "\x7b% while x %\x7d\x7b% if y %\x7d\x7b% break %\x7d\x7b% endif %\x7d\x7b% endwhile %\x7d"
        ).isOk = true := by decide +kernel
  obtain ⟨nodes, hp⟩ := exists_of_isOk hok
  exact ⟨nodes, hp, fun host => (renderNodes_normal .standard (fun _ _ _ hd => hd) hp host).1⟩

end Template

end TemplateEngine
