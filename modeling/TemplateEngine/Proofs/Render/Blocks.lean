import TemplateEngine.Proofs.Expr.Scopes
import TemplateEngine.Proofs.Render.Bare
import TemplateEngine.Proofs.Render.Frames

/-!
# Frames of blocks

A block is rendered in a frame of its own.  Built-in tags bind names in the frames of the turns of
their loops and assign where a name is bound already or in the global frame, so in the frame of a
block no name is ever bound, and a block is rendered as if it had no frame (`framed_of_parse`).

The two renderings run side by side, with an empty frame around the frames that have been opened
since (`Scope.Widened`).
-/

namespace TemplateEngine

namespace Scope

/-- A name is bound anew in the inner frames, if one of them binds it, and else in the outer
ones. -/
theorem rebind?_append (name : String) (value : Value) (inner outer : List Frame) :
    rebind? name value (inner ++ outer) =
      ((rebind? name value inner).map (· ++ outer)).or
        ((rebind? name value outer).map (inner ++ ·)) := by
  induction inner with
  | nil => simp [rebind?]
  | cons f inner ih =>
    rw [List.cons_append, rebind?, rebind?]
    by_cases hf : f.binds name = true
    · simp [hf]
    · rw [if_neg hf, if_neg hf, ih]
      cases rebind? name value inner <;> simp [Function.comp_def]

/-- A frame without names is never the one where a name is bound anew. -/
theorem rebind?_nil_cons (name : String) (value : Value) (frames : List Frame) :
    rebind? name value ([] :: frames) = (rebind? name value frames).map ([] :: ·) := rfl

/-- The second scope has an empty frame around its innermost frames, `depth` in number, and is like
the first one otherwise. -/
def Widened (depth : Nat) (s t : Scope) : Prop :=
  ∃ inner outer, inner.length = depth ∧ s.locals = inner ++ outer ∧
    t = { s with locals := inner ++ [] :: outer }

variable {depth : Nat} {s t : Scope}

theorem widened_push (s : Scope) : s.Widened 0 s.push := ⟨[], s.locals, rfl, rfl, rfl⟩

/-- Names have the same values in both scopes. -/
theorem Widened.alike (h : s.Widened depth t) : s.Alike t := by
  obtain ⟨inner, outer, -, hlocals, rfl⟩ := h
  refine ⟨rfl, funext fun name => ?_⟩
  have hempty : Frame.get? [] name = none := rfl
  simp [get?, frames, hlocals, List.findSome?_append, List.findSome?_cons, hempty]

theorem Widened.assign (h : s.Widened depth t) (name : String) (value : Value) :
    (s.assign name value).Widened depth (t.assign name value) := by
  obtain ⟨inner, outer, hlen, hlocals, rfl⟩ := h
  unfold Scope.assign
  dsimp only
  rw [hlocals, rebind?_append, rebind?_append, rebind?_nil_cons]
  cases hinner : rebind? name value inner with
  | some inner' =>
    have hlen' : inner'.length = inner.length := by
      simpa using congrArg List.length (map_binds_rebind? hinner)
    exact ⟨inner', outer, hlen'.trans hlen, rfl, rfl⟩
  | none =>
    cases rebind? name value outer with
    | some outer' => exact ⟨inner, outer', hlen, rfl, rfl⟩
    | none => exact ⟨inner, outer, hlen, rfl, rfl⟩

/-- A name is bound in a frame that both scopes have. -/
theorem Widened.setLocal (h : s.Widened (depth + 1) t) (name : String) (value : Value) :
    (s.setLocal name value).Widened (depth + 1) (t.setLocal name value) := by
  obtain ⟨inner, outer, hlen, hlocals, rfl⟩ := h
  obtain ⟨f, inner, rfl⟩ := List.exists_cons_of_length_eq_add_one hlen
  unfold Scope.setLocal
  rw [hlocals]
  exact ⟨f.insert name value :: inner, outer, hlen, rfl, rfl⟩

theorem Widened.push (h : s.Widened depth t) : s.push.Widened (depth + 1) t.push := by
  obtain ⟨inner, outer, hlen, hlocals, rfl⟩ := h
  exact ⟨[] :: inner, outer, congrArg (· + 1) hlen, congrArg ([] :: ·) hlocals, rfl⟩

theorem Widened.pop (h : s.Widened (depth + 1) t) : s.pop.Widened depth t.pop := by
  obtain ⟨inner, outer, hlen, hlocals, rfl⟩ := h
  obtain ⟨f, inner, rfl⟩ := List.exists_cons_of_length_eq_add_one hlen
  exact ⟨inner, outer, Nat.succ_injective hlen, congrArg List.tail hlocals, rfl⟩

/-- The empty frame is dropped. -/
theorem Widened.pop_eq (h : s.Widened 0 t) : t.pop = s := by
  obtain ⟨inner, outer, hlen, hlocals, rfl⟩ := h
  cases List.length_eq_zero_iff.mp hlen
  cases hlocals
  rfl

end Scope

/-- A scope and the same scope with an empty frame more, and equal stops. -/
def Likeness.widened : Likeness where
  scopes := Scope.Widened
  stops := Eq
  places := Eq
  stops_refl _ := rfl
  stops_placedAt hp h := by rw [hp, h]
  mode h := h.alike.mode
  clock := by
    rintro _ _ _ ⟨_, _, _, _, rfl⟩
    rfl
  counter := by
    rintro _ _ _ ⟨_, _, _, _, rfl⟩
    rfl
  eval h host e part := e.eval_congr host h.alike part
  tick := by
    rintro _ _ _ ⟨inner, outer, hlen, hlocals, rfl⟩
    exact ⟨inner, outer, hlen, hlocals, rfl⟩
  bump := by
    rintro _ _ _ ⟨inner, outer, hlen, hlocals, rfl⟩ name delta
    exact ⟨inner, outer, hlen, hlocals, rfl⟩
  assign h := h.assign
  setLocal h := h.setLocal
  push h := h.push
  pop h := h.pop

namespace Markup
open Render Likeness

variable {L : Likeness}

mutual

/-- Where equal places match, a node of built-in tags is rendered alike from scopes that are
alike. -/
theorem alike_node (hL : ∀ offset, L.places offset offset) {depth : Nat} :
    ∀ {node : Node}, node.BuiltIn → L.Alike depth node.run node.run
  | .text s, _ => (alike_write s).bind fun _ => alike_pure _
  | .output e offset, _ =>
    ((alike_value e).located (hL offset)).bind fun v =>
      (alike_writeValue v).bind fun _ => alike_pure _
  | .tag h children clauses, ⟨hf, hchildren, hclauses⟩ => by
    have hview : Tag.View.Alike L ⟨h.name, h.args, runNodes children, clauseViews clauses⟩
        ⟨h.name, h.args, runNodes children, clauseViews clauses⟩ :=
      ⟨rfl, rfl, fun _ => alike_runNodes hL hchildren, alike_clauseViews hL hclauses⟩
    exact (Tag.alike_run hf.ne_host hview).located (hL _)

theorem alike_runNodes (hL : ∀ offset, L.places offset offset) {depth : Nat} :
    ∀ {nodes : List Node}, AllBuiltIn nodes → L.Alike depth (runNodes nodes) (runNodes nodes)
  | [], _ => alike_pure _
  | _ :: _, ⟨hn, hs⟩ => alike_andThen (alike_node hL hn) (alike_runNodes hL hs)

theorem alike_clauseViews (hL : ∀ offset, L.places offset offset) :
    ∀ {clauses : List (Head × List Node)}, ClausesBuiltIn clauses →
    List.Forall₂ (Tag.ClauseView.Alike L) (clauseViews clauses) (clauseViews clauses)
  | [], _ => .nil
  | (h, nodes) :: clauses, ⟨hb, hn, hs⟩ => by
    refine .cons ⟨rfl, hL _, fun depth => ?_⟩ (alike_clauseViews hL hs)
    have hview : Tag.View.Alike L ⟨h.name, h.args, runNodes nodes, []⟩
        ⟨h.name, h.args, runNodes nodes, []⟩ :=
      ⟨rfl, rfl, fun _ => alike_runNodes hL hn, .nil⟩
    have hhost : ∀ f, h.descriptor.behavior ≠ .host f := by simp [hb]
    exact (Tag.alike_run hhost hview).located (hL _)

end

/-- A row of built-in tags is rendered in a frame of its own as it is without. -/
theorem framed_runNodes {nodes : List Node} (hn : AllBuiltIn nodes) (host : Host)
    (s : RenderState) :
    (framed (runNodes nodes)).runFrom host s = (runNodes nodes).runFrom host s := by
  have halike : Likeness.widened.Alike 0 (runNodes nodes) (runNodes nodes) :=
    alike_runNodes (fun _ => rfl) hn
  have h := halike host s s.push s.scope.widened_push rfl
  change (((runNodes nodes).runFrom host s.push).1,
    { ((runNodes nodes).runFrom host s.push).2 with
      scope := ((runNodes nodes).runFrom host s.push).2.scope.pop }) = _
  generalize (runNodes nodes).runFrom host s = x, (runNodes nodes).runFrom host s.push = x' at h ⊢
  obtain ⟨x, t⟩ := x
  obtain ⟨x', t'⟩ := x'
  obtain ⟨hresult, hscope, hout⟩ := h
  have hx : x = x' := by
    cases hresult with
    | ok => rfl
    | stop h => exact congrArg Except.error h
  dsimp only at hscope hout ⊢
  rw [hx, hscope.pop_eq, ← hout]

/-- **The frame of a block cannot be observed.**  Every row of nodes of a template of built-in tags,
be it the template itself or a body or a clause in it, is rendered in a new frame, which is dropped
at its end, as it is rendered directly in the frame that is open: with the same output, the same
signal or error, the same counters and the same frames afterwards. -/
theorem framed_of_parse {registry : Tag.Registry} (hr : registry.Reachable)
    (hs : ∀ name mode d, registry.get? name mode = some d →
      Tag.Registry.standard.get? name mode = some d)
    {mode : Mode} {source : String} {nodes row : List Node}
    (hp : parse registry mode source = .ok nodes) (hrow : RowIn nodes row) (host : Host)
    (s : RenderState) :
    (framed (runNodes row)).runFrom host s = (runNodes row).runFrom host s :=
  framed_runNodes (hrow.allBuiltIn (allBuiltIn_of_parse hr hs hp)) host s

/-- The template assigns a variable of the block around it and one that is new, and has a loop with
a variable of the same name. -/
theorem framed_of_parse_assign : ∃ nodes,
    parse .standard .standard ("\x7b% assign x = 1 %\x7d\x7b% assign y = 2 %\x7d" ++
        "\x7b% for x in (1..2) %\x7d\x7b% assign x = y %\x7d\x7b\x7b x \x7d\x7d" ++
        "\x7b% endfor %\x7d") = .ok nodes ∧
    ∀ host, (framed (runNodes nodes)).runFrom host
        ⟨⟨.standard, [], [[("x", .str "a")]], [], 0⟩, ""⟩ =
      (runNodes nodes).runFrom host ⟨⟨.standard, [], [[("x", .str "a")]], [], 0⟩, ""⟩ := by
  have hok : (parse .standard .standard ("\x7b% assign x = 1 %\x7d\x7b% assign y = 2 %\x7d" ++
      "\x7b% for x in (1..2) %\x7d\x7b% assign x = y %\x7d\x7b\x7b x \x7d\x7d" ++
      "\x7b% endfor %\x7d")).isOk = true := by decide +kernel
  obtain ⟨nodes, hp⟩ := exists_of_isOk hok
  exact ⟨nodes, hp, fun host =>
    framed_of_parse .standard (fun _ _ _ hd => hd) hp .tree host _⟩

end Markup

end TemplateEngine
