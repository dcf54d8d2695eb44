import TemplateEngine.Markup.Head
import TemplateEngine.Proofs.Expr.Dialects

/-!
# Dialects do not mix

Every expression that is read, as a text of its own or in the head of a tag, has at every depth only
forms of its dialect (`Markup.forms_of_read`).  What stands in an expression is told by
`Expr.Occurs`, and what a form is by the root of an expression alone (`Expr.IsStandard`,
`Expr.IsPython`).
-/

namespace TemplateEngine

namespace Expr

/-! ### Occurrences -/

/-- The expressions that an expression is made of, one level down. -/
def parts : Expr → List Expr
  | .literal _ | .empty | .var _ => []
  | .list items | .tuple items | .set items => items
  | .dict entries => entries.flatMap fun entry => [entry.1, entry.2]
  | .range first last => [first, last]
  | .attr base _ => [base]
  | .index base key => [base, key]
  | .slice base start stop step => base :: (start.toList ++ stop.toList ++ step.toList)
  | .call callee args => callee :: args
  | .unary _ operand => [operand]
  | .binary _ left right => [left, right]
  | .ternary cond yes no => [cond, yes, no]
  | .filter value _ args => value :: args

/-- The first expression is the second one or stands somewhere in it. -/
inductive Occurs (p : Expr) : Expr → Prop where
  | root : Occurs p p
  | part {q e : Expr} (hq : q ∈ e.parts) (h : Occurs p q) : Occurs p e

/-! ### Forms -/

/-- An expression of the standard dialect, by its root: no tuple, set, dict, slice, call, sign or
choice, and the operators of comparison and truth alone. -/
def IsStandard : Expr → Prop
  | .literal v => v.IsScalar
  | .list _ | .range .. | .empty | .var _ | .attr .. | .index .. | .filter .. => True
  | .binary op _ _ => op ∈ [.or, .and, .eq, .ne, .lt, .le, .gt, .ge, .contains]
  | .tuple _ | .set _ | .dict _ | .slice .. | .call .. | .unary .. | .ternary .. => False

/-- An expression of the python dialect, by its root: no range, no `empty`, no `contains` and no
number with a minus. -/
def IsPython : Expr → Prop
  | .range .. | .empty => False
  | .binary op _ _ => op ≠ .contains
  | .literal v => v.IsScalar ∧ v.IsUnsigned
  | _ => True

/-- The root of the expression is a form of the dialect. -/
def IsForm : Mode → Expr → Prop
  | .standard => IsStandard
  | .python => IsPython

variable {mode : Mode} {e p : Expr}

theorem InDialect.isForm (h : e.InDialect mode) : e.IsForm mode := by
  cases h with
  | literal hv hs =>
    cases mode with
    | standard => exact hv
    | python => exact ⟨hv, hs rfl⟩
  | binary ho =>
    cases mode with
    | standard => exact List.contains_iff_mem.mp ho
    | python => exact bne_iff_ne.mp ho
  | list | var | attr | index | filter => cases mode <;> trivial
  | tuple hm | set hm | dict hm | range hm | empty hm | slice hm | call hm | unary hm
    | ternary hm =>
    subst hm
    trivial

theorem InDialect.of_mem_parts (h : e.InDialect mode) (hp : p ∈ e.parts) : p.InDialect mode := by
  cases h with
  | literal | var | empty => cases hp
  | list h | tuple _ h | set _ h => exact h p hp
  | dict _ hk hv =>
    obtain ⟨entry, hentry, hp⟩ := List.mem_flatMap.mp hp
    rcases List.mem_pair.mp hp with rfl | rfl
    · exact hk entry hentry
    · exact hv entry hentry
  | range _ hf hl =>
    rcases List.mem_pair.mp hp with rfl | rfl
    · exact hf
    · exact hl
  | attr h => exact List.mem_singleton.mp hp ▸ h
  | index hb hk =>
    rcases List.mem_pair.mp hp with rfl | rfl
    · exact hb
    · exact hk
  | slice _ hb h₁ h₂ h₃ =>
    simp only [parts, List.mem_cons, List.mem_append, Option.mem_toList] at hp
    rcases hp with rfl | (h | h) | h
    · exact hb
    · exact h₁ p h
    · exact h₂ p h
    · exact h₃ p h
  | call _ hc h => exact List.forall_mem_cons.mpr ⟨hc, h⟩ p hp
  | unary _ _ h => exact List.mem_singleton.mp hp ▸ h
  | binary _ hl hr =>
    rcases List.mem_pair.mp hp with rfl | rfl
    · exact hl
    · exact hr
  | ternary _ hc hy hn =>
    simp only [parts, List.mem_cons, List.not_mem_nil, or_false] at hp
    rcases hp with rfl | rfl | rfl
    · exact hc
    · exact hy
    · exact hn
  | filter hv _ h => exact List.forall_mem_cons.mpr ⟨hv, h⟩ p hp

theorem InDialect.of_occurs (h : e.InDialect mode) (hp : p.Occurs e) : p.InDialect mode := by
  induction hp with
  | root => exact h
  | part hq _ ih => exact ih (h.of_mem_parts hq)

end Expr

/-! ### Heads -/

namespace Tag

/-- The expressions in a head. -/
def Args.expressions : Args → List Expr
  | .none | .varName _ | .raw _ => []
  | .expr e | .assign _ e => [e]
  | .exprList es => es
  | .forLoop head => head.iterable :: (head.limit.toList ++ head.offset.toList)

/-- The expressions in the head of a loop are of the dialect. -/
structure LoopHead.InDialect (mode : Mode) (head : LoopHead) : Prop where
  iterable : head.iterable.InDialect mode
  limit : ∀ e, head.limit = some e → e.InDialect mode
  offset : ∀ e, head.offset = some e → e.InDialect mode

theorem LoopHead.InDialect.expressions {mode : Mode} {head : LoopHead}
    (h : head.InDialect mode) : ∀ e ∈ (Args.forLoop head).expressions, e.InDialect mode := by
  intro e he
  simp only [Args.expressions, List.mem_cons, List.mem_append, Option.mem_toList] at he
  rcases he with rfl | he | he
  · exact h.iterable
  · exact h.limit e he
  · exact h.offset e he

end Tag

namespace Markup

/-- The alternatives of an expression are parts of it. -/
theorem inDialect_alternatives {mode : Mode} {e : Expr} (h : e.InDialect mode) :
    ∀ a ∈ alternatives mode e, a.InDialect mode := by
  fun_induction alternatives mode e with
  | case1 left right hmode ihl ihr =>
    cases h with
    | binary _ hl hr =>
      subst hmode
      exact List.forall_mem_append.mpr ⟨ihl hl, ihr hr⟩
  | case2 left right => simpa using h
  | case3 e => simpa using h

namespace Parse
open TemplateEngine.Parse

variable {mode : Mode}

theorem gives_expr : Gives (Expr.InDialect mode) (expr mode.grammar) := fun s a t hs e =>
  (givesForms mode (s.depth mode.grammar)).expression s a t hs e

theorem gives_plainExpr : Gives (Expr.InDialect mode) (plainExpr mode.grammar) := fun s a t hs e =>
  (givesForms mode (s.depth mode.grammar)).choice s a t hs e

theorem gives_identifier (g : Grammar) : Gives (fun _ => True) (identifier g) := by
  refine gives_peek.bind fun t _ => ?_
  split
  · split
    · exact (never_expected _).gives
    · exact gives_tail.bind fun _ _ => gives_pure trivial
  · exact (never_expected _).gives

theorem gives_exprList (n : Nat) :
    Gives (fun es => ∀ e ∈ es, e.InDialect mode) (exprList mode n) := by
  induction n with
  | zero => exact never_tooDeep.gives
  | succ n ih =>
    rw [exprList]
    refine gives_expr.bind fun e he => (gives_eat _).bind fun b _ => ?_
    split
    · exact ih.bind fun es hes =>
        gives_pure (List.forall_mem_append.mpr ⟨inDialect_alternatives he, hes⟩)
    · exact gives_pure (inDialect_alternatives he)

theorem gives_targets (g : Grammar) (n : Nat) : Gives (fun _ => True) (targets g n) := by
  induction n with
  | zero => exact never_tooDeep.gives
  | succ n ih =>
    rw [targets]
    refine (gives_identifier g).bind fun first _ => (gives_eat _).bind fun b _ => ?_
    split
    · exact ih.bind fun _ _ => gives_pure trivial
    · exact gives_pure trivial

theorem gives_loopParts (n : Nat) {head : Tag.LoopHead} (h : head.InDialect mode) :
    Gives (Tag.LoopHead.InDialect mode) (loopParts mode.grammar n head) := by
  induction n generalizing head with
  | zero => exact never_tooDeep.gives
  | succ n ih =>
    -- a part that takes an expression, which the head holds afterwards
    have count : ∀ next : Expr → Tag.LoopHead, (∀ e, e.InDialect mode → (next e).InDialect mode) →
        Gives (Tag.LoopHead.InDialect mode)
          (do expect (.symbol .colon); let e ← plainExpr mode.grammar
              let _ ← eat (.symbol .comma); loopParts mode.grammar n (next e)) :=
      fun next hnext => (gives_expect _).bind fun _ _ => gives_plainExpr.bind fun e he =>
        (gives_eat _).bind fun _ _ => ih (hnext e he)
    rw [loopParts]
    refine (gives_eat _).bind fun b _ => ?_
    split
    · exact (gives_eat _).bind fun _ _ => ih ⟨h.iterable, h.limit, h.offset⟩
    · refine (gives_eat _).bind fun b _ => ?_
      split
      · refine count _ fun e he => ⟨h.iterable, ?_, h.offset⟩
        rintro _ ⟨⟩
        exact he
      · refine (gives_eat _).bind fun b _ => ?_
        split
        · refine count _ fun e he => ⟨h.iterable, h.limit, ?_⟩
          rintro _ ⟨⟩
          exact he
        · exact gives_pure h

theorem gives_loopHead (n : Nat) : Gives (Tag.LoopHead.InDialect mode) (loopHead mode n) := by
  refine (gives_targets mode.grammar n).bind fun targets _ => (gives_expect _).bind fun _ _ =>
    gives_expr.bind fun iterable hiterable => ?_
  have hhead : Tag.LoopHead.InDialect mode ⟨targets, iterable, none, none, false⟩ :=
    ⟨hiterable, nofun, nofun⟩
  cases mode with
  | standard => exact gives_loopParts n hhead
  | python => exact gives_pure hhead

/-- The readers of heads give expressions of the dialect. -/
theorem gives_args (n : Nat) (start : Tag.Start) :
    Gives (fun args => ∀ e ∈ Tag.Args.expressions args, e.InDialect mode) (args mode n start) := by
  cases start with
  | expr => exact gives_expr.bind fun e he => gives_pure (List.forall_mem_singleton.mpr he)
  | varName =>
    exact (gives_identifier _).bind fun _ _ => gives_pure (List.forall_mem_nil _)
  | exprList => exact (gives_exprList n).bind fun es hes => gives_pure hes
  | assign =>
    exact (gives_identifier _).bind fun _ _ => (gives_expect _).bind fun _ _ =>
      gives_expr.bind fun e he => gives_pure (List.forall_mem_singleton.mpr he)
  | forLoop => exact (gives_loopHead n).bind fun head hhead => gives_pure hhead.expressions
  | none | raw => exact gives_pure (List.forall_mem_nil _)

end Parse

theorem inDialect_of_readArgs {mode : Mode} {start : Tag.Start} {name : String}
    {head : List Char} {base : Nat} {args : Tag.Args}
    (h : readArgs mode start name head base = .ok args) :
    ∀ e ∈ args.expressions, e.InDialect mode := by
  have hwhole : (Parse.args mode (head.length + 1) start).whole (String.ofList head) base =
      .ok args → ∀ e ∈ args.expressions, e.InDialect mode := by
    intro h
    obtain ⟨ts, t, hts, hrun, -⟩ := TemplateEngine.Parse.whole_eq_ok_iff.mp h
    exact (Parse.gives_args _ start _ _ _ (TokenStream.isUnsigned_of_tokens hts) hrun).1
  unfold readArgs at h
  split at h
  · cases h
    exact List.forall_mem_nil _
  · split at h
    · cases h
      exact List.forall_mem_nil _
    · obtain ⟨ts, -, h⟩ := bind_eq_ok_iff.mp h
      cases h
  · split at h
    · cases h
    · exact hwhole h

/-- **Dialects do not mix.**  What stands at any depth in an expression that has been read in a
dialect is a form of this dialect, and so is what stands in the expressions of a head. -/
theorem forms_of_read (mode : Mode) :
    (∀ (source : String) (base : Nat) (e : Expr), Expr.parse mode source base = .ok e →
      ∀ p : Expr, p.Occurs e → p.IsForm mode) ∧
    ∀ (start : Tag.Start) (name : String) (head : List Char) (base : Nat) (args : Tag.Args),
      readArgs mode start name head base = .ok args →
        ∀ e ∈ args.expressions, ∀ p : Expr, p.Occurs e → p.IsForm mode :=
  ⟨fun _ _ _ h _ hp => ((Expr.inDialect_of_parse h).of_occurs hp).isForm,
    fun _ _ _ _ _ h e he _ hp => ((inDialect_of_readArgs h e he).of_occurs hp).isForm⟩

/-- A minus belongs to a number in one dialect and is an operator in the other, and the head of a
loop holds a range. -/
theorem forms_of_read_minus :
    (∃ e, Expr.parse .standard "xs[-1] == (1..n) | at: -2" 0 = .ok e ∧
      ∀ p : Expr, p.Occurs e → p.IsForm .standard) ∧
    (∃ e, Expr.parse .python "[-1, xs[-2:]] if x else (1,)" 0 = .ok e ∧
      ∀ p : Expr, p.Occurs e → p.IsForm .python) ∧
    ∃ args, readArgs .standard .forLoop "for" "i in (1..n) limit: m".toList 0 = .ok args ∧
      ∀ e ∈ args.expressions, ∀ p : Expr, p.Occurs e → p.IsForm .standard := by
  obtain ⟨e, he⟩ := exists_of_isOk
    (show (Expr.parse .standard "xs[-1] == (1..n) | at: -2" 0).isOk = true by decide +kernel)
  obtain ⟨e', he'⟩ := exists_of_isOk
    (show (Expr.parse .python "[-1, xs[-2:]] if x else (1,)" 0).isOk = true by decide +kernel)
  obtain ⟨args, hargs⟩ := exists_of_isOk
    (show (readArgs .standard .forLoop "for" "i in (1..n) limit: m".toList 0).isOk = true by
      decide +kernel)
  exact ⟨⟨e, he, (forms_of_read .standard).1 _ _ e he⟩,
    ⟨e', he', (forms_of_read .python).1 _ _ e' he'⟩,
    ⟨args, hargs, (forms_of_read .standard).2 _ _ _ _ args hargs⟩⟩

end Markup

end TemplateEngine
