import TemplateEngine.Proofs.Render.Invariants

/-!
# Frames

A rendering leaves the stack of frames balanced, however it ends (`balanced_of_parse`): no frame
more or less, in the frames of the open blocks the names that they had, and in the global frame no
name less.
-/

namespace TemplateEngine

namespace Frame

/-- The names of the first frame are names of the second. -/
def NamesIn (f g : Frame) : Prop := ∀ name, f.binds name = true → g.binds name = true

theorem lookup_filter {β : Type} {name other : String} (h : other ≠ name)
    (entries : List (String × β)) :
    (entries.filter fun entry => entry.1 != name).lookup other = entries.lookup other := by
  induction entries with
  | nil => rfl
  | cons entry entries ih =>
    obtain ⟨key, value⟩ := entry
    by_cases hk : key = name
    · have hne : (other == name) = false := by simpa using h
      simpa [hk, List.lookup_cons, hne] using ih
    · simp [hk, List.lookup_cons, ih]

theorem get?_insert (f : Frame) (name : String) (value : Value) (other : String) :
    (f.insert name value).get? other = if other = name then some value else f.get? other := by
  unfold get? insert
  by_cases h : other = name
  · simp [h]
  · have hne : (other == name) = false := by simpa using h
    rw [List.lookup_cons, hne, if_neg h]
    exact lookup_filter h f

theorem binds_insert (f : Frame) (name : String) (value : Value) (other : String) :
    (f.insert name value).binds other = (decide (other = name) || f.binds other) := by
  unfold binds
  rw [get?_insert]
  split <;> simp_all

end Frame

namespace Scope

/-- The frames of the open blocks bind the names that they did, and the global frame no less. -/
structure Balanced (s t : Scope) : Prop where
  locals : t.locals.map Frame.binds = s.locals.map Frame.binds
  globals : s.globals.NamesIn t.globals

/-- A name is bound anew where it is bound already. -/
theorem map_binds_rebind? {name : String} {value : Value} {fs gs : List Frame}
    (h : rebind? name value fs = some gs) : gs.map Frame.binds = fs.map Frame.binds := by
  induction fs generalizing gs with
  | nil => cases h
  | cons f fs ih =>
    rw [rebind?] at h
    by_cases hb : f.binds name = true
    · rw [if_pos hb] at h
      cases h
      have hf : (f.insert name value).binds = f.binds := by
        funext other
        rw [Frame.binds_insert]
        by_cases ho : other = name
        · simp [ho, hb]
        · simp [ho]
      rw [List.map_cons, List.map_cons, hf]
    · rw [if_neg hb] at h
      obtain ⟨gs', hgs, rfl⟩ := Option.map_eq_some_iff.mp h
      rw [List.map_cons, List.map_cons, ih hgs]

theorem balanced_assign (s : Scope) (name : String) (value : Value) :
    s.Balanced (s.assign name value) := by
  unfold assign
  split
  · next locals h => exact ⟨map_binds_rebind? h, fun _ hb => hb⟩
  · refine ⟨rfl, fun other hb => ?_⟩
    rw [Frame.binds_insert, hb, Bool.or_true]

/-- Names of a new frame are bound in it only. -/
theorem bindLocals_push (s : Scope) (bindings : List (String × Value)) :
    ∃ f, s.push.bindLocals bindings = { s with locals := f :: s.locals } ∧
      ∀ name ∈ bindings.map Prod.fst, f.binds name = true := by
  have hbind : ∀ f : Frame, ∃ g,
      ({ s with locals := f :: s.locals } : Scope).bindLocals bindings =
        { s with locals := g :: s.locals } ∧
      ∀ name, f.binds name = true ∨ name ∈ bindings.map Prod.fst → g.binds name = true := by
    induction bindings with
    | nil => exact fun f => ⟨f, rfl, by simp⟩
    | cons b bindings ih =>
      intro f
      obtain ⟨g, hg, hbinds⟩ := ih (f.insert b.1 b.2)
      refine ⟨g, hg, fun name hn => hbinds name ?_⟩
      rw [Frame.binds_insert]
      rw [List.map_cons, List.mem_cons] at hn
      rcases hn with hf | rfl | hmem
      · exact .inl (by rw [hf, Bool.or_true])
      · exact .inl (by simp)
      · exact .inr hmem
  obtain ⟨f, hf, hbinds⟩ := hbind []
  exact ⟨f, hf, fun name hn => hbinds name (.inr hn)⟩

/-- The frames stay balanced across everything that a built-in tag does. -/
theorem invariant_balanced : Invariant Balanced where
  refl s := ⟨rfl, fun _ h => h⟩
  trans s t u h₁ h₂ :=
    ⟨h₂.locals.trans h₁.locals, fun name h => h₂.globals name (h₁.globals name h)⟩
  tick s := ⟨rfl, fun _ h => h⟩
  assign := balanced_assign
  bump s name delta := ⟨rfl, fun _ h => h⟩
  block {s t} bindings h := by
    obtain ⟨f, hf, -⟩ := bindLocals_push s bindings
    rw [hf] at h
    refine ⟨?_, h.globals⟩
    rw [pop, List.map_tail, h.locals, List.map_cons, List.tail_cons]

end Scope

namespace Markup

/-- **Rendering keeps the frames balanced.**  However the rendering of a template of built-in tags
ends, there are as many frames as before, the frames of the open blocks bind the names that they
did, and the global frame binds no less. -/
theorem balanced_of_parse {registry : Tag.Registry} (hr : registry.Reachable)
    (hs : ∀ name mode d, registry.get? name mode = some d →
      Tag.Registry.standard.get? name mode = some d)
    {mode : Mode} {source : String} {nodes : List Node}
    (hp : parse registry mode source = .ok nodes) (host : Host) (s : RenderState)
    {result : Except Stop Signal} {s' : RenderState}
    (hrun : (runNodes nodes).runFrom host s = (result, s')) :
    s'.scope.depth = s.scope.depth ∧ s.scope.Balanced s'.scope := by
  have h := keeps_runNodes Scope.invariant_balanced (allBuiltIn_of_parse hr hs hp) host s
  rw [hrun] at h
  have hlength : s'.scope.locals.length = s.scope.locals.length := by
    simpa using congrArg List.length h.locals
  exact ⟨congrArg (· + 1) hlength, h⟩

/-- A name that is not defined, in the first turn of a loop in a block with a frame of its own. -/
theorem balanced_of_parse_undefined : ∃ nodes,
    parse .standard .python "\x7b% for x in [1] %\x7d\x7b\x7b y \x7d\x7d\x7b% endfor %\x7d" = .ok nodes ∧
      ∀ host, ∃ result s',
        (runNodes nodes).runFrom host
            ⟨⟨.python, [("z", .nil)], [[("a", .nil)]], [], 0⟩, ""⟩ = (result, s') ∧
          s'.scope.depth = 2 ∧
          Scope.Balanced ⟨.python, [("z", .nil)], [[("a", .nil)]], [], 0⟩ s'.scope := by
  have hok : (parse .standard .python
      "\x7b% for x in [1] %\x7d\x7b\x7b y \x7d\x7d\x7b% endfor %\x7d").isOk = true := by decide +kernel
  obtain ⟨nodes, hp⟩ := exists_of_isOk hok
  exact ⟨nodes, hp, fun host => ⟨_, _, rfl,
    balanced_of_parse .standard (fun _ _ _ hd => hd) hp host _ rfl⟩⟩

end Markup

end TemplateEngine
