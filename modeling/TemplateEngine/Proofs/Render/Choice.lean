import Mathlib.Data.List.Find
import TemplateEngine.Proofs.Render.Places
import TemplateEngine.Proofs.Value.Equality

/-!
# The clause that a choice takes

`case` compares the value of its subject with the values in its clauses.  `==` compares the values
of its operands too, but in the standard dialect the word `empty` has a meaning of its own beside
it: it equals everything without items, while its value is the empty text.  So `case` takes the
first clause with an expression that `==` finds equal, unless that is because of `empty` beside an
empty container (`Markup.run_case`).
-/

namespace TemplateEngine

namespace Value

/-- A list, a tuple, a set or a dict without items. -/
def isEmptyContainer : Value → Bool
  | .list xs | .tuple xs | .set xs => xs.isEmpty
  | .dict es => es.isEmpty
  | _ => false

/-- What has no items is the empty text or a container. -/
theorem equals_empty_text (v : Value) :
    v.equals (.str "") = (v.hasNoItems && !v.isEmptyContainer) := by
  rw [Bool.eq_iff_iff]
  cases v with
  | str s => simp [equals, hasNoItems, length?, isEmptyContainer]
  | list items | tuple items | set items | dict items =>
    cases items <;> simp [equals, equalsNumber, number?, hasNoItems, length?, isEmptyContainer]
  | _ => simp [equals, equalsNumber, number?, hasNoItems, length?]

theorem equals_comm {a b : Value} (ha : a.IsDistinct) (hb : b.IsDistinct) :
    a.equals b = b.equals a :=
  Bool.eq_iff_iff.mpr ⟨equalityOn_isDistinct.symm ha hb, equalityOn_isDistinct.symm hb ha⟩

end Value

namespace Render

variable {host : Host} {s : RenderState} {a b : Expr} {u v : Value}

/-! ### Equality of expressions -/

/-- `a == b` is true in a state. -/
def equalIn (host : Host) (s : RenderState) (a b : Expr) : Bool :=
  match valueIn host s [] (.binary .eq a b) with
  | .ok (.bool holds) => holds
  | _ => false

/-- In the standard dialect, one expression is the word `empty` and the other one has an empty
container as its value. -/
def emptyMeetsContainer (host : Host) (s : RenderState) (a b : Expr) : Bool :=
  match valueIn host s [0] a, valueIn host s [1] b with
  | .ok u, .ok v => s.scope.mode = .standard &&
      (a.isEmpty && v.isEmptyContainer || b.isEmpty && u.isEmptyContainer)
  | _, _ => false

/-- The subject `a` of a `case` selects a clause that holds `b`. -/
def selects (host : Host) (s : RenderState) (a b : Expr) : Bool :=
  equalIn host s a b && !emptyMeetsContainer host s a b

theorem valueIn_eq (ha : valueIn host s [0] a = .ok u) (hb : valueIn host s [1] b = .ok v) :
    valueIn host s [] (.binary .eq a b) = .ok (.bool (
      if s.scope.mode = .standard ∧ a.isEmpty then v.hasNoItems
      else if s.scope.mode = .standard ∧ b.isEmpty then u.hasNoItems
      else u.equals v)) := by
  change a.eval host s.scope (0 :: [s.scope.clock]) = _ at ha
  change b.eval host s.scope (1 :: [s.scope.clock]) = _ at hb
  change (Expr.binary .eq a b).eval host s.scope [s.scope.clock] = _
  rw [Expr.eval, ha, hb]
  simp only [BinaryOp.isEquality, true_and]
  split
  · simp [bind, Except.bind, pure, Except.pure]
  · split
    · simp [bind, Except.bind, pure, Except.pure]
    · rfl

theorem value_of_isEmpty {part : List Nat} (he : a.isEmpty = true)
    (ha : valueIn host s part a = .ok u) : u = .str "" := by
  cases a <;> cases he
  cases ha
  rfl

/-- What `case` compares is what `==` compares, the word `empty` beside a container apart. -/
theorem equals_eq_selects (ha : valueIn host s [0] a = .ok u) (hb : valueIn host s [1] b = .ok v)
    (hu : u.IsDistinct) (hv : v.IsDistinct) : v.equals u = selects host s a b := by
  rw [selects, equalIn, valueIn_eq ha hb, emptyMeetsContainer, ha, hb]
  -- `==` has the subject on its left, `case` has it on its right
  by_cases hmode : s.scope.mode = .standard
  · by_cases hea : a.isEmpty = true
    · rw [value_of_isEmpty hea ha, Value.equals_empty_text]
      simp [hmode, hea, Value.isEmptyContainer]
    · by_cases heb : b.isEmpty = true
      · rw [Value.equals_comm hv hu, value_of_isEmpty heb hb, Value.equals_empty_text]
        simp [hmode, hea, heb]
      · simp [hmode, hea, heb, Value.equals_comm hv hu]
  · simp [hmode, Value.equals_comm hv hu]

/-- The expression has a value in the state.  Sets and dicts are rows here, so it is said of those
in the value that their items and keys are different. -/
def HasValue (host : Host) (s : RenderState) (part : List Nat) (e : Expr) : Prop :=
  ∃ v, valueIn host s part e = .ok v ∧ v.IsDistinct

end Render

namespace Tag
open Render

variable {host : Host} {s : RenderState}

/-- The expressions of a head that lists some. -/
def Args.exprs : Args → List Expr
  | .exprList es => es
  | _ => []

theorem Args.exprs_of_ne {args : Args} (h : ∀ es, args ≠ .exprList es) : args.exprs = [] := by
  unfold exprs
  split
  · next es => exact absurd rfl (h es)
  · rfl

/-- Clauses whose tests have answers are passed over until one answers yes. -/
theorem runFrom_runFirst {γ : Type} {clauses : List γ} {view : γ → ClauseView}
    {select : ClauseView → Render Bool} {answer : γ → Bool}
    (h : ∀ c ∈ clauses, (select (view c)).runFrom host s = (.ok (answer c), s)) :
    (runFirst (clauses.map view) select).runFrom host s =
      ((clauses.find? answer).elim (return .normal) fun c => (view c).run).runFrom host s := by
  induction clauses with
  | nil => rfl
  | cons c clauses ih =>
    rw [List.forall_mem_cons] at h
    rw [List.map_cons, runFirst, runFrom_bind, h.1]
    cases hc : answer c with
    | true => simp [hc]
    | false => simpa [hc] using ih h.2

theorem runFrom_anyEquals_selects {subject : Expr} {u : Value} (offset : Nat) {es : List Expr}
    (hsubject : valueIn host s [0] subject = .ok u) (hu : u.IsDistinct)
    (h : ∀ e ∈ es, HasValue host s [1] e) :
    (anyEquals offset u es).runFrom host s = (.ok (es.any (selects host s subject)), s) := by
  induction es with
  | nil => rfl
  | cons e es ih =>
    rw [List.forall_mem_cons] at h
    obtain ⟨⟨v, hvalue, hv⟩, h⟩ := h
    rw [anyEquals, runFrom_bind, runFrom_located, runFrom_valueAt, hvalue, List.any_cons,
      ← equals_eq_selects hsubject hvalue hu hv]
    cases heq : v.equals u with
    | true =>
      simp only [Except.mapError, heq, if_true, Bool.true_or]
      rfl
    | false => simpa [Except.mapError, heq] using ih h

/-- The subject of a `case` takes a clause with this head: it selects a value of it, or the head
lists no values. -/
def takes (host : Host) (s : RenderState) (subject : Expr) : Args → Bool
  | .exprList es => es.any (selects host s subject)
  | _ => true

theorem takes_of_ne {subject : Expr} {args : Args} (h : ∀ es, args ≠ .exprList es) :
    takes host s subject args = true := by
  unfold takes
  split
  · next es => exact absurd rfl (h es)
  · rfl

theorem runFrom_holdsSubject {subject : Expr} {u : Value}
    (hsubject : valueIn host s [0] subject = .ok u) (hu : u.IsDistinct) {c : ClauseView}
    (h : ∀ e ∈ c.args.exprs, HasValue host s [1] e) :
    (holdsSubject u c).runFrom host s = (.ok (takes host s subject c.args), s) := by
  unfold holdsSubject
  split
  · next es hc =>
    rw [hc] at h ⊢
    exact runFrom_anyEquals_selects _ hsubject hu h
  · next hc =>
    rw [takes_of_ne hc]
    rfl

end Tag

namespace Markup
open Render Tag

/-- A `case` about the subject, with `when` clauses that list values, and perhaps a clause for the
rest. -/
structure IsCase (head : Head) (subject : Expr) (whens : List (Head × List Node))
    (otherwise : Option (Head × List Node)) : Prop where
  behavior : head.descriptor.behavior = .choice
  args : head.args = .expr subject
  whens : ∀ c ∈ whens, ∃ es, c.1.args = .exprList es
  otherwise : ∀ c ∈ otherwise, ∀ es, c.1.args ≠ .exprList es

variable {host : Host} {s : RenderState} {head : Head} {subject : Expr}
  {whens : List (Head × List Node)} {otherwise : Option (Head × List Node)}

theorem IsCase.find?_takes (h : IsCase head subject whens otherwise) :
    (whens ++ otherwise.toList).find? (fun c => takes host s subject c.1.args) =
      (whens.find? fun c => c.1.args.exprs.any (selects host s subject)).or otherwise := by
  have hwhens : ∀ c ∈ whens, takes host s subject c.1.args =
      c.1.args.exprs.any (selects host s subject) := by
    intro c hc
    obtain ⟨es, hes⟩ := h.whens c hc
    rw [hes, takes, Args.exprs]
  have hotherwise : otherwise.toList.find? (fun c => takes host s subject c.1.args) =
      otherwise := by
    cases otherwise with
    | none => rfl
    | some c => simp [takes_of_ne (h.otherwise c rfl)]
  rw [List.find?_append, hotherwise, List.find?_congr hwhens]

theorem IsCase.runFrom_holdsSubject (h : IsCase head subject whens otherwise) {u : Value}
    (hsubject : valueIn host s [0] subject = .ok u) (hu : u.IsDistinct)
    (hvalues : ∀ c ∈ whens, ∀ e ∈ c.1.args.exprs, HasValue host s [1] e) :
    ∀ c ∈ whens ++ otherwise.toList,
      (holdsSubject u (clauseView c)).runFrom host s =
        (.ok (takes host s subject c.1.args), s) := by
  intro c hc
  refine Tag.runFrom_holdsSubject hsubject hu ?_
  rcases List.mem_append.mp hc with hc | hc
  · exact hvalues c hc
  · have hexprs := Args.exprs_of_ne (h.otherwise c (Option.mem_toList.mp hc))
    simp [clauseView, hexprs]

/-- A `case` renders the first clause whose test about its subject answers yes. -/
theorem runFrom_case {children : List Node} {clauses : List (Head × List Node)} {u : Value}
    {answer : Head × List Node → Bool} (hb : head.descriptor.behavior = .choice)
    (hargs : head.args = .expr subject) (hsubject : valueIn host s [0] subject = .ok u)
    (h : ∀ c ∈ clauses, (holdsSubject u (clauseView c)).runFrom host s = (.ok (answer c), s)) :
    (Node.tag head children clauses).run.runFrom host s =
      (located head.offset ((clauses.find? answer).elim (return .normal) fun c =>
        (clauseView c).run)).runFrom host s := by
  have hchoice : (head.descriptor.behavior.run ⟨head.name, head.args, runNodes children,
      clauseViews clauses⟩).runFrom host s =
      (runFirst (clauseViews clauses) (holdsSubject u)).runFrom host s := by
    rw [hb, hargs]
    change (valueAt [0] subject >>= fun u => runFirst _ (holdsSubject u)).runFrom host s = _
    rw [runFrom_bind, runFrom_valueAt, hsubject]
    rfl
  rw [Node.run, Head.run, runFrom_located, runFrom_located, hchoice, clauseViews_eq_map,
    runFrom_runFirst h]

/-- A `case` whose expressions have values renders the first `when` clause with an expression to
which `==` finds the subject equal, the word `empty` beside an empty container apart, else the
clause for the rest, else nothing. -/
theorem run_case (h : IsCase head subject whens otherwise) (hsubject : HasValue host s [0] subject)
    (hvalues : ∀ c ∈ whens, ∀ e ∈ c.1.args.exprs, HasValue host s [1] e) (children : List Node) :
    (Node.tag head children (whens ++ otherwise.toList)).run.runFrom host s =
      (located head.offset (
        ((whens.find? fun c => c.1.args.exprs.any (selects host s subject)).or otherwise).elim
          (return .normal) fun c => (clauseView c).run)).runFrom host s := by
  obtain ⟨u, hsubject, hu⟩ := hsubject
  rw [runFrom_case h.behavior h.args hsubject (h.runFrom_holdsSubject hsubject hu hvalues),
    h.find?_takes]

/-- The integer one is not `empty`, but it equals the floating point number one. -/
theorem run_case_number :
    let host : Host := ⟨Filter.standard, fun _ _ _ => fail .overflow, 1⟩
    let s : RenderState := ⟨.ofGlobals .standard [("x", .int 1)], ""⟩
    let blank : Head := ⟨"when", .ofBehavior .clause, .exprList [.empty], 12⟩
    let one : Head := ⟨"when", .ofBehavior .clause, .exprList [.literal (.float (.ofInt 1))], 27⟩
    let rest : Head := ⟨"else", .ofBehavior .clause, .none, 42⟩
    (Node.tag ⟨"case", .ofBehavior .choice, .expr (.var "x"), 0⟩ []
        [(blank, [.text "blank"]), (one, [.text "one"]), (rest, [])]).run.runFrom host s =
      (located 0 (clauseView (one, [.text "one"])).run).runFrom host s := by
  intro host s blank one rest
  have hcase : IsCase ⟨"case", .ofBehavior .choice, .expr (.var "x"), 0⟩ (.var "x")
      [(blank, [.text "blank"]), (one, [.text "one"])] (some (rest, [])) :=
    ⟨rfl, rfl, by simp [blank, one], by simp [rest]⟩
  have hsubject : HasValue host s [0] (.var "x") := ⟨.int 1, rfl, .int 1⟩
  have hvalues : ∀ c ∈ [(blank, [Node.text "blank"]), (one, [.text "one"])],
      ∀ e ∈ c.1.args.exprs, HasValue host s [1] e := by
    simpa [blank, one, Args.exprs] using
      ⟨⟨.str "", rfl, .str ""⟩, ⟨.float (.ofInt 1), rfl, .float (.ofInt 1)⟩⟩
  have hblank : selects host s (.var "x") .empty = false := rfl
  have hone : selects host s (.var "x") (.literal (.float (.ofInt 1))) = true :=
    (equals_eq_selects rfl rfl (.int 1) (.float (.ofInt 1))).symm.trans
      ((Value.equals_of_number? rfl rfl).trans (by decide))
  have hfind : [(blank, [Node.text "blank"]), (one, [.text "one"])].find?
      (fun c => c.1.args.exprs.any (selects host s (.var "x"))) = some (one, [.text "one"]) := by
    simp [blank, one, Args.exprs, hblank, hone]
  have hrun := run_case hcase hsubject hvalues []
  rwa [hfind] at hrun

/-- An empty list equals the word `empty` in the standard dialect, and `case` does not find it. -/
theorem not_run_case_empty : ¬ ∀ (host : Host) (s : RenderState) (head : Head) (subject : Expr)
    (whens : List (Head × List Node)) (otherwise : Option (Head × List Node)),
    IsCase head subject whens otherwise → HasValue host s [0] subject →
    (∀ c ∈ whens, ∀ e ∈ c.1.args.exprs, HasValue host s [1] e) →
    (Node.tag head [] (whens ++ otherwise.toList)).run.runFrom host s =
      (located head.offset (
        ((whens.find? fun c => c.1.args.exprs.any (equalIn host s subject)).or otherwise).elim
          (return .normal) fun c => (clauseView c).run)).runFrom host s := by
  intro h
  let host : Host := ⟨Filter.standard, fun _ _ _ => fail .overflow, 1⟩
  let s : RenderState := ⟨.ofGlobals .standard [("x", .list [])], ""⟩
  let head : Head := ⟨"case", .ofBehavior .choice, .expr (.var "x"), 0⟩
  let empty : Head := ⟨"when", .ofBehavior .clause, .exprList [.empty], 12⟩
  have hcase : IsCase head (.var "x") [(empty, [.text "yes"])] none :=
    ⟨rfl, rfl, by simp [empty], by simp⟩
  have hlist : (Value.list []).IsDistinct := .list (by simp)
  have hvalues : ∀ c ∈ [(empty, [Node.text "yes"])], ∀ e ∈ c.1.args.exprs,
      HasValue host s [1] e := by
    simpa [empty, Args.exprs] using ⟨.str "", rfl, .str ""⟩
  have hequal := h host s head (.var "x") _ _ hcase ⟨.list [], rfl, hlist⟩ hvalues
  have hrun : (Node.tag head [] [(empty, [.text "yes"])]).run.runFrom host s = _ :=
    runFrom_case hcase.behavior hcase.args rfl (hcase.runFrom_holdsSubject rfl hlist hvalues)
  have hout := congrArg (fun r => r.2.out) (hrun.symm.trans hequal)
  exact absurd hout (by decide)

end Markup

end TemplateEngine
