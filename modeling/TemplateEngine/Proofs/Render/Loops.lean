import TemplateEngine.Proofs.Expr.Scopes
import TemplateEngine.Proofs.Scope.Lexical

/-!
# Variables of loops

A loop binds its targets and the place of its turn in the frame of the turn, and what its body
assigns to these names it assigns there, or further inside.  So after a loop, however it ends, they
have the values that they had before (`loop_names_of_parse`).

The scope is cut at any frame (`Scope.under`).  A built-in tag leaves outside the cut the value of
each name that a frame inside the cut binds, and it leaves those frames the names that they bind
(`Scope.Shielded`); a turn is the case of a cut around its frame.
-/

namespace TemplateEngine

namespace Scope

/-- Wherever the first scope is cut, the second one has the same frames inside, as far as the names
go that they bind, and outside the same values of these names. -/
def Shielded (s t : Scope) : Prop :=
  ∀ (base : Scope) (inner : List Frame), s = base.under inner →
    ∃ (base' : Scope) (inner' : List Frame), t = base'.under inner' ∧
      inner'.map Frame.binds = inner.map Frame.binds ∧
      ∀ name, (inner.any fun f => f.binds name) = true → base'.get? name = base.get? name

theorem any_binds_congr {fs gs : List Frame} (h : fs.map Frame.binds = gs.map Frame.binds)
    (name : String) : (fs.any fun f => f.binds name) = gs.any fun f => f.binds name := by
  have hmap : ∀ fs : List Frame,
      (fs.any fun f => f.binds name) = (fs.map Frame.binds).any fun binds => binds name := by
    intro fs
    rw [List.any_map]
    rfl
  rw [hmap, hmap, h]

/-- A name is assigned inside the cut if a frame there binds it. -/
theorem shielded_assign (s : Scope) (name : String) (value : Value) :
    s.Shielded (s.assign name value) := by
  rintro base inner rfl
  have hbinds := (balanced_assign (base.under inner) name value).locals
  rcases base.assign_under inner name value with ⟨inner', hlen, -, h⟩ | ⟨hany, h⟩
  · rw [h, under, under, List.map_append, List.map_append] at hbinds
    refine ⟨base, inner', h, (List.append_inj hbinds (by simpa using hlen)).1, fun _ _ => rfl⟩
  · refine ⟨base.assign name value, inner, h, rfl, fun other ho => ?_⟩
    have hne : other ≠ name := by
      rintro rfl
      rw [hany] at ho
      cases ho
    rw [get?_assign, if_neg hne]

theorem invariant_shielded : Invariant Shielded where
  refl s base inner h := ⟨base, inner, h, rfl, fun _ _ => rfl⟩
  trans s t u hst htu base inner h := by
    obtain ⟨base₁, inner₁, h₁, hbinds₁, hget₁⟩ := hst base inner h
    obtain ⟨base₂, inner₂, h₂, hbinds₂, hget₂⟩ := htu base₁ inner₁ h₁
    refine ⟨base₂, inner₂, h₂, hbinds₂.trans hbinds₁, fun name hn => ?_⟩
    rw [← hget₁ name hn]
    exact hget₂ name ((any_binds_congr hbinds₁ name).trans hn)
  tick := by
    rintro _ base inner rfl
    exact ⟨base.tick, inner, rfl, rfl, fun _ _ => rfl⟩
  bump := by
    rintro _ name delta base inner rfl
    exact ⟨base.bump name delta, inner, rfl, rfl, fun _ _ => rfl⟩
  assign := shielded_assign
  block := by
    rintro s t bindings h base inner rfl
    obtain ⟨f, hf, -⟩ := bindLocals_push (base.under inner) bindings
    -- the frame of the block is one more inside the cut
    obtain ⟨base', inner', rfl, hbinds, hget⟩ := h base (f :: inner) hf
    obtain ⟨f', inner', rfl⟩ := List.exists_cons_of_length_eq_add_one
      (by simpa using congrArg List.length hbinds)
    refine ⟨base', inner', rfl, (List.cons.inj hbinds).2, fun name hn => hget name ?_⟩
    rw [List.any_cons, hn, Bool.or_true]

/-- These names have the same values in both scopes. -/
def AgreeOn (names : List String) (s t : Scope) : Prop :=
  ∀ name ∈ names, t.get? name = s.get? name

theorem steady_agreeOn (names : List String) : Steady (AgreeOn names) where
  refl _ _ _ := rfl
  trans _ _ _ h₁ h₂ name hn := (h₂ name hn).trans (h₁ name hn)
  tick _ _ _ := rfl

theorem steady_alike : Steady Alike where
  refl _ := ⟨rfl, rfl⟩
  trans _ _ _ h₁ h₂ := ⟨h₁.mode.trans h₂.mode, h₁.get?.trans h₂.get?⟩
  tick _ := ⟨rfl, rfl⟩

end Scope

namespace Tag
open Render Scope

/-- A turn leaves the names that it binds as they are outside. -/
theorem keeps_names_forTurn {body : Render Signal} (hb : body.Keeps Shielded)
    (targets : List String) (info : String) (length index : Nat) (item : Value) :
    (forTurn targets info length body index item).Keeps (AgreeOn (targets ++ [info])) := by
  intro host s name hname
  rcases runFrom_forTurn targets info length body index item host s with
    ⟨e, he⟩ | ⟨bindings, hnames, hok⟩
  · rw [he]
  · obtain ⟨f, hf, hbinds⟩ := s.scope.bindLocals_push bindings
    obtain ⟨base', inner', hbase, hinner, hget⟩ :=
      hb host { s with scope := s.scope.push.bindLocals bindings } s.scope [f] hf
    obtain ⟨f', rfl⟩ := List.length_eq_one_iff.mp (by simpa using congrArg List.length hinner)
    rw [hok]
    dsimp only
    rw [hbase]
    refine hget name ?_
    rw [List.any_cons, hbinds name (hnames ▸ hname), Bool.true_or]

/-- A loop without a clause leaves its targets and the name of its place as they are. -/
theorem keeps_names_runFor (v : View) {head : LoopHead} (ha : v.args = .forLoop head)
    (hc : v.clauses = []) (hb : v.body.Keeps Shielded) :
    (runFor v).Keeps fun s t => AgreeOn (head.targets ++ [loopInfoName s.mode]) s t := by
  have helse : ∀ b : Bool, (if b then runElse v else pure Signal.normal) = pure Signal.normal := by
    intro b
    unfold runElse
    rw [hc]
    exact ite_self _
  intro host s
  unfold runFor
  rw [ha]
  simp only [helse]
  rw [runFrom_bind]
  have hitems := keeps_loopItems steady_alike head host s
  generalize (loopItems head).runFrom host s = x at hitems
  obtain ⟨stop | items, s₁⟩ := x
  · exact fun name _ => congrFun hitems.get?.symm name
  -- the place of the turn has its name in the dialect, which the head does not change
  dsimp only at hitems ⊢
  have hsteady := steady_agreeOn (head.targets ++ [loopInfoName s₁.scope.mode])
  have hturns := (keeps_forTurns_of_turn hsteady (keeps_names_forTurn hb head.targets
    (loopInfoName s₁.scope.mode) items.length) 0 items).bind hsteady.trans
    fun _ => keeps_pure hsteady.refl Signal.normal
  intro name hname
  rw [hitems.mode] at hname
  rw [hitems.get?]
  exact hturns host s₁ name hname

end Tag

namespace Markup
open Render

/-- **Variables of loops never leak.**  After a loop without a clause in a template of built-in
tags, however it ends (all turns, broken off, or stopped by its head, by the binding of its targets
or by its body), each of its targets and the name of its place has the value that it had before,
whatever the body assigns to these names. -/
theorem loop_names_of_parse {registry : Tag.Registry} (hr : registry.Reachable)
    (hs : ∀ name mode d, registry.get? name mode = some d →
      Tag.Registry.standard.get? name mode = some d)
    {mode : Mode} {source : String} {nodes row children : List Node} {h : Head}
    (hp : parse registry mode source = .ok nodes) (hrow : RowIn nodes row)
    (hn : .tag h children [] ∈ row) (hb : h.descriptor.behavior = .forLoop) :
    ∃ head, h.args = .forLoop head ∧ ∀ (host : Host) (s s' : RenderState)
      (result : Except Stop Signal),
      (Node.tag h children []).run.runFrom host s = (result, s') →
        ∀ name, name ∈ head.targets ∨ name = Tag.loopInfoName s.scope.mode →
          s'.scope.get? name = s.scope.get? name := by
  obtain ⟨hfits, hchildren, -⟩ := (hrow.allBuiltIn (allBuiltIn_of_parse hr hs hp)).of_mem hn
  rw [hb] at hfits
  cases hargs : h.args with
  | forLoop head =>
    have hbody : (runNodes children).Keeps Scope.Shielded :=
      keeps_runNodes Scope.invariant_shielded hchildren
    have hloop : (Node.tag h children []).run =
        located h.offset (Tag.runFor ⟨h.name, .forLoop head, runNodes children, []⟩) := by
      rw [Node.run, Head.run, hb, hargs]
      rfl
    refine ⟨head, rfl, fun host s s' result hrun name hname => ?_⟩
    have hkeeps := (Tag.keeps_names_runFor ⟨h.name, .forLoop head, runNodes children, []⟩ rfl rfl
      hbody).located h.offset host s name
      (by simpa using hname)
    rwa [← hloop, hrun] at hkeeps
  | _ =>
    rw [hargs] at hfits
    cases hfits

/-- The node is a `for` loop without a clause. -/
def Node.isFor : Node → Bool
  | .tag h _ [] =>
    match h.descriptor.behavior with
    | .forLoop => true
    | _ => false
  | _ => false

theorem Node.exists_of_isFor {node : Node} (h : node.isFor = true) :
    ∃ head children, node = .tag head children [] ∧ head.descriptor.behavior = .forLoop := by
  unfold isFor at h
  split at h
  · next head children =>
    split at h
    · next hb => exact ⟨head, children, rfl, hb⟩
    · cases h
  · cases h

/-- The body assigns to the targets, captures into the name of the place, has a loop with the same
names inside and breaks off. -/
theorem loop_names_of_parse_break : ∃ nodes h children head,
    parse .standard .python ("\x7b% for x, y in ps %\x7d\x7b% assign x = 1 %\x7d" ++
        "\x7b% for y in [x] %\x7d\x7b% capture loop %\x7dt\x7b% endcapture %\x7d" ++
        "\x7b% endfor %\x7d\x7b% break %\x7d\x7b% endfor %\x7d") = .ok nodes ∧
      .tag h children [] ∈ nodes ∧ h.descriptor.behavior = .forLoop ∧ h.args = .forLoop head ∧
      ∀ host result s', (Node.tag h children []).run.runFrom host
          ⟨⟨.python, [("loop", .nil)], [[("x", .str "a")]], [], 0⟩, ""⟩ = (result, s') →
        ∀ name, name ∈ head.targets ∨ name = "loop" → s'.scope.get? name =
          Scope.get? ⟨.python, [("loop", .nil)], [[("x", .str "a")]], [], 0⟩ name := by
  have hok : (fun nodes => nodes.any Node.isFor) <$> parse .standard .python
      ("\x7b% for x, y in ps %\x7d\x7b% assign x = 1 %\x7d" ++
        "\x7b% for y in [x] %\x7d\x7b% capture loop %\x7dt\x7b% endcapture %\x7d" ++
        "\x7b% endfor %\x7d\x7b% break %\x7d\x7b% endfor %\x7d") = .ok true := by decide +kernel
  obtain ⟨nodes, hp, hany⟩ := map_eq_ok_iff.mp hok
  obtain ⟨node, hmem, hfor⟩ := List.any_eq_true.mp hany
  obtain ⟨h, children, rfl, hb⟩ := Node.exists_of_isFor hfor
  obtain ⟨head, hargs, hget⟩ := loop_names_of_parse .standard (fun _ _ _ hd => hd) hp .tree hmem hb
  exact ⟨nodes, h, children, head, hp, hmem, hb, hargs, fun host result s' hrun =>
    hget host _ s' result hrun⟩

end Markup

end TemplateEngine
