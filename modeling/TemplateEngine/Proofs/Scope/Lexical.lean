import Mathlib.Logic.Function.Basic
import TemplateEngine.Proofs.Render.Frames
import TemplateEngine.Proofs.Value.Overflow

/-!
# Lexical scoping

What a rendering does with its scope is a row of steps: it opens and drops frames, binds names and
adds to counters.  Such rows are described in three ways, and `Scope.run_lexical` is all of them.

* The frames are a stack of finite maps (`Stack`), and each step does to them what it does to the
  stack (`stack_after`).  A name has the value of the innermost map that holds it.
* A frame that is opened and dropped again leaves of what happened in between only the assignments
  that found the name in no frame above the outer ones.  The scope is cut below the new frame
  (`Scope.under`): a step binds names either above the cut, and then nothing below it changes, or
  it assigns below it (`exists_under_after`), and the run is by induction over the steps.
* A counter is the sum of what has been added to it, and no name can see it.
-/

namespace TemplateEngine

namespace Scope

/-- A step that a rendering takes with its scope. -/
inductive Step where
  | push
  | pop
  | assign (name : String) (value : Value)
  | setLocal (name : String) (value : Value)
  | bump (name : String) (delta : Int64)

/-- The scope after a step. -/
def after (s : Scope) : Step → Scope
  | .push => s.push
  | .pop => s.pop
  | .assign name value => s.assign name value
  | .setLocal name value => s.setLocal name value
  | .bump name delta => s.bump name delta

/-- The scope after a row of steps. -/
def run (s : Scope) (steps : List Step) : Scope := steps.foldl after s

/-- What a step answers: one that adds to a counter what the counter was before. -/
def answer (s : Scope) : Step → Option Int64
  | .bump name _ => some (s.counter name)
  | .push | .pop | .assign .. | .setLocal .. => none

end Scope

/-! ### Stacks of finite maps -/

/-- Frames as maps from names to values, the innermost first. -/
abbrev Stack := List (String → Option Value)

namespace Stack

/-- The value of a name in the first map that holds it. -/
def get? (st : Stack) (name : String) : Option Value := st.findSome? fun f => f name

/-- Binds a name in the first map that holds it, and in the last one if none does. -/
def assign (name : String) (value : Value) : Stack → Stack
  | [] => []
  | [f] => [Function.update f name (some value)]
  | f :: g :: more =>
    if (f name).isSome then Function.update f name (some value) :: g :: more
    else f :: assign name value (g :: more)

/-- The stack after a step.  The last map is never dropped. -/
def after (st : Stack) : Scope.Step → Stack
  | .push => (fun _ => none) :: st
  | .pop =>
    match st with
    | _ :: g :: more => g :: more
    | st => st
  | .assign name value => st.assign name value
  | .setLocal name value =>
    match st with
    | [] => []
    | f :: more => Function.update f name (some value) :: more
  | .bump .. => st

/-- The stack after a row of steps. -/
def run (st : Stack) (steps : List Scope.Step) : Stack := steps.foldl after st

theorem assign_concat (name : String) (value : Value) (f : String → Option Value) (st : Stack)
    (g : String → Option Value) :
    assign name value (f :: (st ++ [g])) =
      if (f name).isSome then Function.update f name (some value) :: (st ++ [g])
      else f :: assign name value (st ++ [g]) := by
  cases st <;> rfl

/-- An assignment is seen under its name, and under no other. -/
theorem get?_assign (name other : String) (value : Value) (st : Stack)
    (g : String → Option Value) :
    get? (assign name value (st ++ [g])) other =
      if other = name then some value else get? (st ++ [g]) other := by
  induction st with
  | nil =>
    by_cases h : other = name
    · simp [assign, get?, h]
    · simp [assign, get?, h, Function.update_of_ne]
  | cons f st ih =>
    rw [List.cons_append, assign_concat]
    unfold get? at ih ⊢
    by_cases hf : (f name).isSome = true
    · rw [if_pos hf, List.findSome?_cons, List.findSome?_cons]
      by_cases h : other = name
      · simp [h]
      · simp [h, Function.update_of_ne]
    · rw [if_neg hf, List.findSome?_cons, List.findSome?_cons, ih]
      by_cases h : other = name
      · simp [h, Option.not_isSome_iff_eq_none.mp hf]
      · simp [h]

end Stack

namespace Scope

/-- The frames as maps. -/
def stack (s : Scope) : Stack := s.frames.map Frame.get?

theorem get?_eq (s : Scope) (name : String) :
    s.get? name = (s.stack.get? name).or (builtin? s.mode name) := by
  unfold get? stack Stack.get?
  rw [List.findSome?_map]
  cases h : s.frames.findSome? fun frame => frame.get? name with
  | none => simp [Function.comp_def, h]
  | some v => simp [Function.comp_def, h]

end Scope

theorem Frame.get?_insert_eq (f : Frame) (name : String) (value : Value) :
    (f.insert name value).get? = Function.update f.get? name (some value) := by
  funext other
  rw [Frame.get?_insert, Function.update_apply]

namespace Scope

theorem stack_assign (s : Scope) (name : String) (value : Value) :
    (s.assign name value).stack = s.stack.assign name value := by
  obtain ⟨mode, globals, locals, counters, clock⟩ := s
  have hframes : ∀ fs : List Frame,
      (rebind? name value fs).elim (fs.map Frame.get? ++ [(globals.insert name value).get?])
        (fun gs => gs.map Frame.get? ++ [globals.get?]) =
        Stack.assign name value (fs.map Frame.get? ++ [globals.get?]) := by
    intro fs
    induction fs with
    | nil => simp [rebind?, Stack.assign, Frame.get?_insert_eq]
    | cons f fs ih =>
      rw [List.map_cons, List.cons_append, List.cons_append, Stack.assign_concat, ← ih, rebind?]
      by_cases hf : f.binds name = true
      · have hsome : (f.get? name).isSome = true := hf
        simp [hf, hsome, Frame.get?_insert_eq]
      · have hnone : ¬ (f.get? name).isSome = true := hf
        rw [if_neg hf, if_neg hnone]
        cases rebind? name value fs <;> rfl
  have h := hframes locals
  simp only [stack, frames, assign, List.map_append, List.map_singleton]
  rw [← h]
  cases rebind? name value locals <;> rfl

/-- Each step does to the frames what it does to the stack of maps. -/
theorem stack_after (s : Scope) (step : Step) : (s.after step).stack = s.stack.after step := by
  cases step with
  | push => rfl
  | pop =>
    obtain ⟨mode, globals, locals, counters, clock⟩ := s
    cases locals with
    | nil => rfl
    | cons f more => cases more <;> rfl
  | assign name value => exact s.stack_assign name value
  | setLocal name value =>
    obtain ⟨mode, globals, locals, counters, clock⟩ := s
    cases locals <;>
      simp [after, setLocal, stack, frames, Stack.after, Frame.get?_insert_eq]
  | bump name delta => rfl

theorem stack_run (s : Scope) (steps : List Step) : (s.run steps).stack = s.stack.run steps := by
  induction steps generalizing s with
  | nil => rfl
  | cons step steps ih => exact (ih (s.after step)).trans (by rw [stack_after]; rfl)

theorem mode_after (s : Scope) (step : Step) : (s.after step).mode = s.mode := by
  cases step with
  | push | pop | bump => rfl
  | assign name value =>
    unfold after assign
    dsimp only
    split <;> rfl
  | setLocal name value =>
    unfold after setLocal
    dsimp only
    split <;> rfl

theorem mode_run (s : Scope) (steps : List Step) : (s.run steps).mode = s.mode := by
  induction steps generalizing s with
  | nil => rfl
  | cons step steps ih => exact (ih (s.after step)).trans (s.mode_after step)

/-- An assignment is seen under its name, and under no other. -/
theorem get?_assign (s : Scope) (name other : String) (value : Value) :
    (s.assign name value).get? other = if other = name then some value else s.get? other := by
  have hmode : (s.assign name value).mode = s.mode := s.mode_after (.assign name value)
  have hstack : s.stack = s.locals.map Frame.get? ++ [s.globals.get?] := by simp [stack, frames]
  rw [get?_eq, get?_eq, hmode, stack_assign, hstack, Stack.get?_assign]
  split <;> rfl

/-! ### Frames that are opened and dropped -/

/-- The number of frames that are open after a step, when `n` were before; none if the step drops a
frame and no frame is open. -/
def Step.open? (n : Nat) : Step → Option Nat
  | .push => some (n + 1)
  | .pop => if n = 0 then none else some (n - 1)
  | .assign .. | .setLocal .. | .bump .. => some n

/-- The steps drop every frame that they open, and no other. -/
def IsBalanced (steps : List Step) : Prop := steps.foldlM Step.open? 0 = some 0

instance (steps : List Step) : Decidable (IsBalanced steps) :=
  inferInstanceAs (Decidable (_ = _))

/-- One of the frames above the `n` outermost ones binds the name. -/
def bindsAbove (s : Scope) (n : Nat) (name : String) : Bool :=
  (s.frames.take (s.depth - n)).any fun frame => frame.binds name

/-- The value that a step assigns to a name that no frame above the `n` outermost ones binds. -/
def assigned? (s : Scope) (n : Nat) (name : String) : Step → Option Value
  | .assign other value => if other = name ∧ s.bindsAbove n name = false then some value else none
  | .push | .pop | .setLocal .. | .bump .. => none

/-- The last value that the steps assign to a name while no frame above the `n` outermost ones binds
it. -/
def lastAssigned? (s : Scope) (n : Nat) (name : String) : List Step → Option Value
  | [] => none
  | step :: steps =>
    ((s.after step).lastAssigned? n name steps).or (s.assigned? n name step)

/-- The scope with more frames inside. -/
def under (s : Scope) (inner : List Frame) : Scope := { s with locals := inner ++ s.locals }

theorem bindsAbove_under (s : Scope) (inner : List Frame) (name : String) :
    (s.under inner).bindsAbove s.depth name = inner.any fun frame => frame.binds name := by
  have hdepth : (s.under inner).depth - s.depth = inner.length := by
    simp only [under, depth, List.length_append]
    omega
  have hframes : (s.under inner).frames = inner ++ s.frames := by simp [under, frames]
  rw [bindsAbove, hdepth, hframes, List.take_left]

/-- A name is assigned in the inner frames, if one of them binds it, and else in the scope below. -/
theorem assign_under (s : Scope) (inner : List Frame) (name : String) (value : Value) :
    (∃ inner', inner'.length = inner.length ∧ (inner.any fun frame => frame.binds name) = true ∧
        (s.under inner).assign name value = s.under inner') ∨
      ((inner.any fun frame => frame.binds name) = false ∧
        (s.under inner).assign name value = (s.assign name value).under inner) := by
  have hrebind : ∀ fs : List Frame,
      (∃ gs, gs.length = fs.length ∧ (fs.any fun frame => frame.binds name) = true ∧
          rebind? name value (fs ++ s.locals) = some (gs ++ s.locals)) ∨
        ((fs.any fun frame => frame.binds name) = false ∧
          rebind? name value (fs ++ s.locals) =
            (rebind? name value s.locals).map (fs ++ ·)) := by
    intro fs
    induction fs with
    | nil => exact .inr ⟨rfl, by simp⟩
    | cons f fs ih =>
      by_cases hf : f.binds name = true
      · exact .inl ⟨f.insert name value :: fs, rfl, by simp [hf], by simp [rebind?, hf]⟩
      · rcases ih with ⟨gs, hlen, hany, hgs⟩ | ⟨hany, hnone⟩
        · refine .inl ⟨f :: gs, by simp [hlen], by simp [hany], ?_⟩
          simp [rebind?, hf, hgs]
        · refine .inr ⟨by simp [hf, hany], ?_⟩
          simp [rebind?, hf, hnone, Function.comp_def]
  rcases hrebind inner with ⟨inner', hlen, hany, h⟩ | ⟨hany, h⟩
  · refine .inl ⟨inner', hlen, hany, ?_⟩
    simp [assign, under, h]
  · refine .inr ⟨hany, ?_⟩
    unfold assign under
    dsimp only
    rw [h]
    cases rebind? name value s.locals <;> rfl

theorem assigned?_under (s : Scope) (inner : List Frame) (name other : String) (value : Value) :
    (s.under inner).assigned? s.depth other (.assign name value) =
      if name = other ∧ (inner.any fun frame => frame.binds other) = false then some value
      else none := by
  rw [assigned?, bindsAbove_under]

theorem depth_assign (s : Scope) (name : String) (value : Value) :
    (s.assign name value).depth = s.depth := by
  have h := congrArg List.length (balanced_assign s name value).locals
  rw [List.length_map, List.length_map] at h
  rw [depth, h, depth]

/-- A step above a cut binds names above it, or assigns below it a name that no frame above
binds. -/
theorem exists_under_after (s : Scope) {inner : List Frame} {n m : Nat} {step : Step}
    (hlen : inner.length = n + 1) (hopen : step.open? n = some m) :
    ∃ (s' : Scope) (inner' : List Frame), (s.under inner).after step = s'.under inner' ∧
      inner'.length = m + 1 ∧ s'.depth = s.depth ∧
      ∀ name, s'.get? name = ((s.under inner).assigned? s.depth name step).or (s.get? name) := by
  obtain ⟨f, fs, rfl⟩ := List.exists_cons_of_length_eq_add_one hlen
  cases step with
  | push =>
    cases hopen
    exact ⟨s, [] :: f :: fs, rfl, congrArg (· + 1) hlen, rfl, fun _ => rfl⟩
  | pop =>
    obtain ⟨hn, hm⟩ := Option.ite_none_left_eq_some.mp hopen
    cases hm
    have hlen' : fs.length = n - 1 + 1 := by
      rw [List.length_cons] at hlen
      omega
    exact ⟨s, fs, rfl, hlen', rfl, fun _ => rfl⟩
  | setLocal name value =>
    cases hopen
    exact ⟨s, f.insert name value :: fs, rfl, hlen, rfl, fun _ => rfl⟩
  | bump name delta =>
    cases hopen
    exact ⟨s.bump name delta, f :: fs, rfl, hlen, rfl, fun _ => rfl⟩
  | assign name value =>
    cases hopen
    rcases s.assign_under (f :: fs) name value with ⟨inner', hlen', hany, h⟩ | ⟨hany, h⟩
    · refine ⟨s, inner', h, hlen'.trans hlen, rfl, fun other => ?_⟩
      rw [assigned?_under, if_neg]
      · rfl
      · rintro ⟨rfl, hnone⟩
        rw [hany] at hnone
        cases hnone
    · refine ⟨s.assign name value, f :: fs, h, hlen, s.depth_assign name value, fun other => ?_⟩
      rw [assigned?_under, get?_assign]
      by_cases ho : other = name
      · subst ho
        rw [if_pos rfl, if_pos ⟨rfl, hany⟩]
        rfl
      · rw [if_neg ho, if_neg fun h => ho h.1.symm]
        rfl

/-- A run above a cut that ends with one frame above it changes below the cut what it assigns there
last. -/
theorem exists_under_run (s : Scope) (inner : List Frame) {n : Nat} {steps : List Step}
    (hlen : inner.length = n + 1) (hrun : steps.foldlM Step.open? n = some 0) :
    ∃ (s' : Scope) (f : Frame), (s.under inner).run steps = s'.under [f] ∧ s'.depth = s.depth ∧
      ∀ name, s'.get? name =
        ((s.under inner).lastAssigned? s.depth name steps).or (s.get? name) := by
  -- `n` is what the steps have opened so far; the frame of the block itself is one more
  induction steps generalizing s inner n with
  | nil =>
    cases hrun
    obtain ⟨f, rfl⟩ := List.length_eq_one_iff.mp hlen
    exact ⟨s, f, rfl, rfl, fun _ => rfl⟩
  | cons step steps ih =>
    rw [List.foldlM_cons] at hrun
    obtain ⟨m, hopen, hrun⟩ := Option.bind_eq_some_iff.mp hrun
    obtain ⟨s₁, inner₁, hafter, hlen₁, hdepth₁, hget₁⟩ := s.exists_under_after hlen hopen
    obtain ⟨s', f, hrun', hdepth', hget'⟩ := ih s₁ inner₁ hlen₁ hrun
    refine ⟨s', f, ?_, hdepth'.trans hdepth₁, fun name => ?_⟩
    · rw [run, List.foldl_cons, hafter]
      exact hrun'
    · rw [hget', hget₁, lastAssigned?, hafter, hdepth₁, Option.or_assoc]

/-- A frame that is opened and dropped leaves the assignments that found the name in no frame above
the outer ones. -/
theorem get?_block (s : Scope) {inner : List Step} (h : IsBalanced inner) :
    (s.push.run inner).pop.depth = s.depth ∧
      ∀ name, (s.push.run inner).pop.get? name =
        (s.push.lastAssigned? s.depth name inner).or (s.get? name) := by
  have hpush : s.push = s.under [[]] := rfl
  obtain ⟨s', f, hrun, hdepth, hget⟩ := s.exists_under_run [[]] rfl h
  have hpop : (s'.under [f]).pop = s' := rfl
  rw [hpush, hrun, hpop]
  exact ⟨hdepth, hget⟩

/-! ### Counters -/

/-- What the steps add to a counter, one after the other. -/
def deltas (name : String) (steps : List Step) : List Int :=
  steps.filterMap fun
    | .bump other delta => if other = name then some delta.toInt else none
    | .push | .pop | .assign .. | .setLocal .. => none

theorem counter_bump (s : Scope) (name other : String) (delta : Int64) :
    (s.bump name delta).counter other =
      if other = name then s.counter name + delta else s.counter other := by
  unfold bump counter
  by_cases h : other = name
  · simp [h]
  · have hne : (other == name) = false := by simpa using h
    rw [if_neg h]
    simp only [List.lookup_cons, hne]
    rw [Frame.lookup_filter h]

theorem counters_after (s : Scope) (step : Step) (h : ∀ name delta, step ≠ .bump name delta) :
    (s.after step).counters = s.counters := by
  cases step with
  | push | pop => rfl
  | assign name value =>
    unfold after assign
    dsimp only
    split <;> rfl
  | setLocal name value =>
    unfold after setLocal
    dsimp only
    split <;> rfl
  | bump name delta => exact absurd rfl (h name delta)

/-- A counter is the sum of what has been added to it, as a word. -/
theorem counter_run (s : Scope) (name : String) (steps : List Step) :
    (s.run steps).counter name = s.counter name + Int64.ofInt (deltas name steps).sum := by
  induction steps generalizing s with
  | nil => simp [run, deltas]
  | cons step steps ih =>
    have hrun : (s.run (step :: steps)).counter name = _ := ih (s.after step)
    rw [hrun]
    cases step with
    | bump other delta =>
      rw [after, counter_bump]
      by_cases h : name = other
      · subst h
        simp [deltas, Int64.ofInt_add, Int64.add_assoc]
      · simp [deltas, h, Ne.symm h]
    | push | pop => rfl
    | assign other value | setLocal other value =>
      rw [counter, counters_after s _ (by simp)]
      rfl

/-- The counter has the sum of the deltas, when a word can hold it. -/
theorem toInt_counter {mode : Mode} {globals : Frame} {name : String} {steps : List Step}
    (h : FitsWord (deltas name steps).sum) :
    (((ofGlobals mode globals).run steps).counter name).toInt = (deltas name steps).sum := by
  have hzero : (ofGlobals mode globals).counter name = 0 := rfl
  rw [counter_run, hzero, Int64.zero_add]
  obtain ⟨hlow, hhigh⟩ := h
  exact Int64.toInt_ofInt_of_le (by omega) (by omega)

/-! ### Whole runs -/

/-- **Scopes are lexical.**  After every row of steps from the start of a rendering: a name has the
value of the innermost frame that holds it, the frames being those of a stack of maps that takes
the same steps, and else it is the built-in function; an assignment is seen under its name and under
no other; a frame that is opened and, after a balanced run, dropped leaves the last value that was
assigned to a name while no frame above the outer ones held it, and else the value of before; and
adding to a counter answers with the sum of what has been added, if a word can hold it, and changes
the value of no name. -/
theorem run_lexical (mode : Mode) (globals : Frame) (steps : List Step) :
    let s := (ofGlobals mode globals).run steps
    (∀ name, s.get? name =
        ((Stack.run [globals.get?] steps).get? name).or (builtin? mode name)) ∧
      (∀ name value, (s.assign name value).get? name = some value ∧
        ∀ other, other ≠ name → (s.assign name value).get? other = s.get? other) ∧
      (∀ inner, IsBalanced inner → (s.push.run inner).pop.depth = s.depth ∧
        ∀ name, (s.push.run inner).pop.get? name =
          (s.push.lastAssigned? s.depth name inner).or (s.get? name)) ∧
      (∀ name delta, FitsWord (deltas name steps).sum →
        ∃ before, s.answer (.bump name delta) = some before ∧
          before.toInt = (deltas name steps).sum) ∧
      ∀ name delta, (s.bump name delta).get? = s.get? := by
  intro s
  have hmode : s.mode = mode := mode_run _ steps
  have hstack : s.stack = Stack.run [globals.get?] steps := stack_run _ steps
  refine ⟨fun name => ?_, fun name value => ⟨?_, fun other ho => ?_⟩,
    fun inner => s.get?_block, fun name delta hfit => ?_, fun _ _ => rfl⟩
  · rw [get?_eq, hstack, hmode]
  · rw [get?_assign, if_pos rfl]
  · rw [get?_assign, if_neg ho]
  · exact ⟨s.counter name, rfl, toInt_counter hfit⟩

/-- In a block of two frames: a loop variable and a global name that is new are assigned, and a name
that is bound in the inner frame keeps its outer value. -/
theorem run_lexical_nested :
    let steps : List Step :=
      [.push, .setLocal "i" (.int 0), .bump "n" 2, .assign "x" (.int 1), .bump "n" (-5)]
    let inner : List Step :=
      [.setLocal "x" (.int 9), .assign "x" (.int 5), .push, .assign "i" (.int 5),
        .assign "y" (.int 7), .pop]
    let s := (ofGlobals .python [("x", .nil)]).run steps
    (IsBalanced inner ∧ (s.push.run inner).pop.get? "i" = some (.int 5) ∧
        (s.push.run inner).pop.get? "x" = some (.int 1) ∧
        (s.push.run inner).pop.get? "y" = some (.int 7)) ∧
      (FitsWord (deltas "n" steps).sum ∧
        ∃ before, s.answer (.bump "n" 1) = some before ∧ before.toInt = -3) ∧
      "len" ≠ "x" ∧ (s.assign "x" .nil).get? "len" = some (.builtin .len) := by
  intro steps inner s
  obtain ⟨-, hassign, hblock, hbump, -⟩ := run_lexical .python [("x", .nil)] steps
  have hbalanced : IsBalanced inner := by decide
  have hfits : FitsWord (deltas "n" steps).sum := by decide
  have hne : "len" ≠ "x" := by decide
  refine ⟨⟨hbalanced, ?_, ?_, ?_⟩, ⟨hfits, hbump "n" 1 hfits⟩, hne, ?_⟩
  · exact ((hblock inner hbalanced).2 "i").trans rfl
  · exact ((hblock inner hbalanced).2 "x").trans rfl
  · exact ((hblock inner hbalanced).2 "y").trans rfl
  · exact ((hassign "x" .nil).2 "len" hne).trans rfl

end Scope

end TemplateEngine
