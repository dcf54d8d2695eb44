import TemplateEngine.Proofs.Expr.Balance
import TemplateEngine.Proofs.Number.Rounding
import TemplateEngine.Proofs.Value.Overflow

/-!
# The forms of a dialect

Both dialects are read by one reader, which a grammar leads.  `Expr.InDialect` lists the forms of
each dialect, and an expression that has been read is built from them alone at every depth
(`Expr.inDialect_of_parse`).  Its literals are none of the containers, and in python expressions a
minus is never a part of a number.

What a reader gives is a property of results (`Parse.Gives`) that `pure` and `bind` hand on, so the
functions of the reader have it by induction on the bound on nesting (`Parse.givesForms`).  Numbers
carry no sign because no number among the tokens does.
-/

namespace TemplateEngine

/-- The value is a single one, and no container or function. -/
def Value.IsScalar : Value → Prop
  | .nil | .bool _ | .int _ | .float _ | .str _ => True
  | _ => False

/-- The value is no number with a minus. -/
def Value.IsUnsigned : Value → Prop
  | .int i => 0 ≤ i.toInt
  | .float x => x.isNegative = false
  | _ => True

/-- The token is no number with a minus. -/
def Lexeme.IsUnsigned : Lexeme → Prop
  | .int i => 0 ≤ i.toInt
  | .float x => x.isNegative = false
  | _ => True

/-- The operators of a dialect. -/
def Mode.hasOperator : Mode → BinaryOp → Bool
  | .standard, op => [.or, .and, .eq, .ne, .lt, .le, .gt, .ge, .contains].contains op
  | .python, op => op != .contains

/-- The expression is built from the forms of the dialect, at every depth. -/
inductive Expr.InDialect (mode : Mode) : Expr → Prop where
  | literal {v : Value} (hv : v.IsScalar) (hs : mode = .python → v.IsUnsigned) :
      InDialect mode (.literal v)
  | list {items : List Expr} (h : ∀ e ∈ items, InDialect mode e) : InDialect mode (.list items)
  | tuple {items : List Expr} (hm : mode = .python) (h : ∀ e ∈ items, InDialect mode e) :
      InDialect mode (.tuple items)
  | set {items : List Expr} (hm : mode = .python) (h : ∀ e ∈ items, InDialect mode e) :
      InDialect mode (.set items)
  | dict {entries : List (Expr × Expr)} (hm : mode = .python)
      (hk : ∀ e ∈ entries, InDialect mode e.1) (hv : ∀ e ∈ entries, InDialect mode e.2) :
      InDialect mode (.dict entries)
  | range {first last : Expr} (hm : mode = .standard) (hf : InDialect mode first)
      (hl : InDialect mode last) : InDialect mode (.range first last)
  | empty (hm : mode = .standard) : InDialect mode .empty
  | var (name : String) : InDialect mode (.var name)
  | attr {base : Expr} (h : InDialect mode base) (name : String) : InDialect mode (.attr base name)
  | index {base key : Expr} (hb : InDialect mode base) (hk : InDialect mode key) :
      InDialect mode (.index base key)
  | slice {base : Expr} {start stop step : Option Expr} (hm : mode = .python)
      (hb : InDialect mode base) (h₁ : ∀ e, start = some e → InDialect mode e)
      (h₂ : ∀ e, stop = some e → InDialect mode e) (h₃ : ∀ e, step = some e → InDialect mode e) :
      InDialect mode (.slice base start stop step)
  | call {callee : Expr} {args : List Expr} (hm : mode = .python) (hc : InDialect mode callee)
      (h : ∀ e ∈ args, InDialect mode e) : InDialect mode (.call callee args)
  | unary {operand : Expr} (hm : mode = .python) (op : UnaryOp) (h : InDialect mode operand) :
      InDialect mode (.unary op operand)
  | binary {op : BinaryOp} {left right : Expr} (ho : mode.hasOperator op = true)
      (hl : InDialect mode left) (hr : InDialect mode right) :
      InDialect mode (.binary op left right)
  | ternary {cond yes no : Expr} (hm : mode = .python) (hc : InDialect mode cond)
      (hy : InDialect mode yes) (hn : InDialect mode no) : InDialect mode (.ternary cond yes no)
  | filter {value : Expr} {args : List Expr} (hv : InDialect mode value) (name : String)
      (h : ∀ e ∈ args, InDialect mode e) : InDialect mode (.filter value name args)

/-! ### Tokens -/

theorem Binary64.isNegative_ofRatio (num den : Nat) :
    (ofRatio false num den).isNegative = false := by
  have hinf : infinityMagnitude < signBit := by decide
  unfold ofRatio
  split
  · exact isNegative_ofMagnitude _ (by decide)
  · exact isNegative_ofMagnitude _ (Nat.lt_of_le_of_lt (Nat.min_le_right _ _) hinf)

/-- A number without a sign is not negative. -/
theorem Numeral.isNegative_toBinary64 (n : Numeral) :
    (n.toBinary64 Binary64.ofRatio false).isNegative = false := by
  cases n with
  | infinity | nan => exact Binary64.isNegative_ofMagnitude _ (by decide)
  | decimal digits exponent =>
    unfold toBinary64
    dsimp only
    split
    · exact Binary64.isNegative_ofMagnitude _ (by decide)
    · split
      · exact Binary64.isNegative_ofMagnitude _ (by decide)
      · exact Binary64.isNegative_ofRatio _ _

/-- No number among the tokens that are left has a minus. -/
def TokenStream.IsUnsigned (s : TokenStream) : Prop := ∀ t ∈ s.rest, t.lexeme.IsUnsigned

theorem TokenStream.IsUnsigned.drop {s : TokenStream} (h : s.IsUnsigned) (n : Nat) :
    TokenStream.IsUnsigned { s with rest := s.rest.drop n } :=
  fun t ht => h t (List.mem_of_mem_drop ht)

theorem TokenStream.IsUnsigned.tail {s : TokenStream} (h : s.IsUnsigned) : s.tail.IsUnsigned :=
  fun t ht => h t (List.mem_of_mem_tail ht)

theorem TokenStream.IsUnsigned.peek {s : TokenStream} (h : s.IsUnsigned) :
    s.peek.lexeme.IsUnsigned := by
  obtain ⟨_ | ⟨t, rest⟩, stop⟩ := s
  · trivial
  · exact h t (by simp)

namespace Lexeme

theorem splitSign_of_isDigit {c : Char} (hc : c.isDigit = true) (cs : List Char) :
    Number.splitSign (c :: cs) = (false, c :: cs) := by
  unfold Number.splitSign
  split
  · next h =>
    cases h
    cases hc
  · next h =>
    cases h
    cases hc
  · rfl

/-- A number is read without a sign. -/
theorem isUnsigned_of_readNumber {offset n : Nat} {c : Char} {cs : List Char} {l : Lexeme}
    (hc : c.isDigit = true) (h : readNumber offset (c :: cs) = .ok (l, n)) : l.IsUnsigned := by
  have hpart : isDigitPart c = true := by rw [isDigitPart, hc, Bool.true_or]
  have hline : (c != '_') = true := by
    rw [bne_iff_ne]
    rintro rfl
    cases hc
  unfold readNumber at h
  simp only [numberText, List.takeWhile_cons, hpart, if_true, List.cons_append,
    List.filter_cons, hline] at h
  split at h
  · split at h
    · next i hi =>
      cases h
      unfold Number.fit? at hi
      split at hi
      · next hb =>
        cases hi
        rw [IsUnsigned, Int64.toInt_ofInt_of_le (by omega) (by omega)]
        exact Int.natCast_nonneg _
      · cases hi
    · cases h
  · cases h
    rw [IsUnsigned, Binary64.read?, Numeral.read?, splitSign_of_isDigit hc]
    dsimp only
    cases Numeral.unsigned? _ with
    | none => decide
    | some m => exact m.isNegative_toBinary64

theorem isUnsigned_of_read {offset n : Nat} {c : Char} {cs : List Char} {l : Lexeme}
    (h : read offset c cs = .ok (l, n)) : l.IsUnsigned := by
  unfold read at h
  split at h
  · next hc =>
    obtain ⟨⟨l', m⟩, hnum, he⟩ := bind_eq_ok_iff.mp h
    cases he
    exact isUnsigned_of_readNumber hc hnum
  · split at h
    · split at h <;> cases h
      trivial
    · split at h
      · cases h
        trivial
      · split at h <;> cases h
        trivial

end Lexeme

/-- No number among the tokens of a text has a minus. -/
theorem TokenStream.isUnsigned_of_tokens {offset : Nat} {cs : List Char} {ts : List Token}
    (h : tokens offset cs = .ok ts) : ∀ t ∈ ts, t.lexeme.IsUnsigned := by
  induction hl : cs.length using Nat.strong_induction_on generalizing offset cs ts with
  | h l ih =>
    subst hl
    cases cs with
    | nil =>
      rw [tokens] at h
      cases h
      exact List.forall_mem_nil _
    | cons c cs =>
      rw [tokens] at h
      split at h
      · exact ih _ (by simp) h rfl
      · obtain ⟨⟨l, n⟩, hread, h⟩ := bind_eq_ok_iff.mp h
        obtain ⟨more, hmore, he⟩ := bind_eq_ok_iff.mp h
        cases he
        refine List.forall_mem_cons.mpr ⟨Lexeme.isUnsigned_of_read hread, ih _ ?_ hmore rfl⟩
        simp only [List.length_cons, List.length_drop]
        omega

/-! ### What readers give -/

namespace Parse

variable {α β : Type}

/-- From tokens without signed numbers, every result of the reader is one of these, and the tokens
that are left are without signed numbers. -/
def Gives (P : α → Prop) (p : Parse α) : Prop :=
  ∀ s a t, s.IsUnsigned → p s = .ok (a, t) → P a ∧ t.IsUnsigned

section
variable {P : α → Prop} {Q : β → Prop} {p : Parse α} {f : α → Parse β}

theorem gives_pure {a : α} (h : P a) : Gives P (pure a) := by
  intro s b t hs e
  cases e
  exact ⟨h, hs⟩

theorem Never.gives (h : Never p) : Gives P p := fun s a t _ e => absurd e (h s (a, t))

theorem Gives.bind (hp : Gives P p) (hf : ∀ a, P a → Gives Q (f a)) : Gives Q (p >>= f) := by
  intro s b t hs e
  obtain ⟨⟨a, s₁⟩, h₁, h₂⟩ := bind_eq_ok_iff.mp e
  obtain ⟨ha, hs₁⟩ := hp s a s₁ hs h₁
  exact hf a ha s₁ b t hs₁ h₂

theorem Gives.map (hp : Gives P p) {g : α → β} (hg : ∀ a, P a → Q (g a)) : Gives Q (g <$> p) := by
  rw [map_eq_pure_bind]
  exact hp.bind fun a ha => gives_pure (hg a ha)

theorem gives_tail : Gives (fun _ => True) (modify TokenStream.tail) := by
  intro s a t hs e
  cases e
  exact ⟨trivial, hs.tail⟩

theorem gives_peek : Gives (fun t => t.lexeme.IsUnsigned) peek := by
  intro s a t hs e
  cases e
  exact ⟨hs.peek, hs⟩

theorem gives_advance : Gives (fun t => t.lexeme.IsUnsigned) advance := by
  intro s a t hs e
  cases e
  exact ⟨hs.peek, hs.tail⟩

theorem gives_check (w : Word) : Gives (fun _ => True) (check w) :=
  gives_peek.bind fun _ _ => gives_pure trivial

theorem gives_eat (w : Word) : Gives (fun _ => True) (eat w) := by
  refine (gives_check w).bind fun b _ => ?_
  split
  · exact gives_tail.bind fun _ _ => gives_pure trivial
  · exact gives_pure trivial

theorem gives_expect (w : Word) : Gives (fun _ => True) (expect w) := by
  refine (gives_eat w).bind fun b _ => ?_
  split
  · exact gives_pure trivial
  · exact (never_expected _).gives

end

theorem gives_operator? (operators : List (List Word × BinaryOp)) :
    Gives (fun r => ∀ op, r = some op → ∃ o ∈ operators, o.2 = op) (operator? operators) := by
  induction operators with
  | nil => exact gives_pure fun _ h => (Option.some_ne_none _ h.symm).elim
  | cons o more ih =>
    intro s a t hs e
    rw [operator?] at e
    change (if s.startsWith o.1 then _ else _ : Parse (Option BinaryOp)) s = _ at e
    split at e
    · cases e
      exact ⟨fun op h => ⟨o, by simp, Option.some.inj h⟩, hs.drop _⟩
    · obtain ⟨ha, ht⟩ := ih s a t hs e
      exact ⟨fun op h => (ha op h).imp fun o ho => ⟨by simp [ho.1], ho.2⟩, ht⟩

theorem gives_sign? (operators : List (Symbol × UnaryOp)) :
    Gives (fun _ => True) (sign? operators) := by
  induction operators with
  | nil => exact gives_pure trivial
  | cons o more ih =>
    refine (gives_eat _).bind fun b _ => ?_
    split
    · exact gives_pure trivial
    · exact ih

theorem gives_filterName : Gives (fun _ => True) filterName := by
  refine gives_peek.bind fun t _ => ?_
  split
  · exact gives_tail.bind fun _ _ => gives_pure trivial
  · exact (never_expected _).gives

theorem gives_attributeName : Gives (fun _ => True) attributeName := by
  refine gives_advance.bind fun t _ => ?_
  split
  · exact gives_pure trivial
  · exact gives_pure trivial
  · exact (never_fault _ _).gives

end Parse

/-! ### Grammars -/

/-- The operators of the level are of the dialect. -/
def Level.OfDialect (mode : Mode) : Level → Prop
  | .between operators => ∀ o ∈ operators, mode.hasOperator o.2 = true
  | .negation | .signs _ | .power => mode = .python

instance (mode : Mode) : (level : Level) → Decidable (level.OfDialect mode)
  | .between operators =>
    inferInstanceAs (Decidable (∀ o ∈ operators, mode.hasOperator o.2 = true))
  | .negation | .signs _ | .power => inferInstanceAs (Decidable (mode = .python))

theorem Mode.ofDialect_of_mem_levels (mode : Mode) :
    ∀ level ∈ mode.grammar.levels, level.OfDialect mode := by
  cases mode <;> decide

/-- A form that the standard grammar lacks is one of the python dialect. -/
theorem Mode.eq_python {mode : Mode} (form : Grammar → Bool) (hs : form .standard = false)
    (h : form mode.grammar = true) : mode = .python := by
  cases mode with
  | standard => cases hs.symm.trans h
  | python => rfl

/-- The keyword is a word of the dialect. -/
theorem Mode.inDialect_of_lookup_keywords (mode : Mode) {name : String} {k : Keyword}
    (h : mode.grammar.keywords.lookup name = some k) : k.expr.InDialect mode := by
  obtain ⟨before, after, he, -⟩ := List.lookup_eq_some_iff.mp h
  have hmem : (name, k) ∈ mode.grammar.keywords := by simp [he]
  cases k with
  | true | false | nil => exact .literal trivial fun _ => trivial
  | empty =>
    cases mode with
    | standard => exact .empty rfl
    | python => simp [Mode.grammar, Grammar.python] at hmem

namespace Parse

/-- All functions of the reader of expressions give forms of the dialect with the bound `n`. -/
structure GivesForms (mode : Mode) (n : Nat) : Prop where
  expression : Gives (Expr.InDialect mode) (expression mode.grammar n)
  filters {value : Expr} (h : value.InDialect mode) :
    Gives (Expr.InDialect mode) (filters mode.grammar n value)
  arguments : Gives (fun es => ∀ e ∈ es, e.InDialect mode) (arguments mode.grammar n)
  choices : Gives (fun es => ∀ e ∈ es, e.InDialect mode) (choices mode.grammar n)
  choice : Gives (Expr.InDialect mode) (choice mode.grammar n)
  level (i : Nat) : Gives (Expr.InDialect mode) (level mode.grammar n i)
  chain (i : Nat) {operators : List (List Word × BinaryOp)}
    (ho : ∀ o ∈ operators, mode.hasOperator o.2 = true) {left : Expr} (h : left.InDialect mode) :
    Gives (Expr.InDialect mode) (chain mode.grammar n i operators left)
  operand : Gives (Expr.InDialect mode) (operand mode.grammar n)
  members {base : Expr} (h : base.InDialect mode) :
    Gives (Expr.InDialect mode) (members mode.grammar n base)
  subscript {base : Expr} (h : base.InDialect mode) :
    Gives (Expr.InDialect mode) (subscript mode.grammar n base)
  sequence (close : Symbol) :
    Gives (fun es => ∀ e ∈ es, e.InDialect mode) (sequence mode.grammar n close)
  primary : Gives (Expr.InDialect mode) (primary mode.grammar n)
  group : Gives (Expr.InDialect mode) (group mode.grammar n)
  braces (hm : mode = .python) : Gives (Expr.InDialect mode) (braces mode.grammar n)
  entries (hm : mode = .python) :
    Gives (fun es => ∀ e ∈ es, e.1.InDialect mode ∧ e.2.InDialect mode) (entries mode.grammar n)

theorem givesForms_zero (mode : Mode) : GivesForms mode 0 where
  expression := never_tooDeep.gives
  filters _ := never_tooDeep.gives
  arguments := never_tooDeep.gives
  choices := never_tooDeep.gives
  choice := never_tooDeep.gives
  level _ := never_tooDeep.gives
  chain _ _ _ _ _ := never_tooDeep.gives
  operand := never_tooDeep.gives
  members _ := never_tooDeep.gives
  subscript _ := never_tooDeep.gives
  sequence _ := never_tooDeep.gives
  primary := never_tooDeep.gives
  group := never_tooDeep.gives
  braces _ := never_tooDeep.gives
  entries _ := never_tooDeep.gives

section
variable {mode : Mode} {n : Nat} (ih : GivesForms mode n)

include ih

theorem GivesForms.filters_succ {value : Expr} (h : value.InDialect mode) :
    Gives (Expr.InDialect mode) (Parse.filters mode.grammar (n + 1) value) := by
  rw [Parse.filters]
  refine (gives_eat _).bind fun b _ => ?_
  split
  · exact gives_filterName.bind fun name _ => ih.arguments.bind fun args hargs =>
      ih.filters (.filter h name hargs)
  · exact gives_pure h

theorem GivesForms.arguments_succ :
    Gives (fun es => ∀ e ∈ es, e.InDialect mode) (Parse.arguments mode.grammar (n + 1)) := by
  rw [Parse.arguments]
  refine (gives_eat _).bind fun b _ => ?_
  split
  · exact ih.choices
  · refine (gives_eat _).bind fun b _ => ?_
    split
    · exact ih.sequence _
    · exact gives_pure (List.forall_mem_nil _)

theorem GivesForms.choices_succ :
    Gives (fun es => ∀ e ∈ es, e.InDialect mode) (Parse.choices mode.grammar (n + 1)) := by
  rw [Parse.choices]
  refine ih.choice.bind fun first hfirst => (gives_eat _).bind fun b _ => ?_
  split
  · exact ih.choices.bind fun more hmore => gives_pure (List.forall_mem_cons.mpr ⟨hfirst, hmore⟩)
  · exact gives_pure (List.forall_mem_singleton.mpr hfirst)

theorem GivesForms.choice_succ :
    Gives (Expr.InDialect mode) (Parse.choice mode.grammar (n + 1)) := by
  rw [Parse.choice]
  refine (ih.level 0).bind fun yes hyes => (gives_check _).bind fun b _ => ?_
  split
  · next hb =>
    have hm := Mode.eq_python Grammar.ternary rfl (Bool.and_eq_true_iff.mp hb).1
    exact gives_tail.bind fun _ _ => (ih.level 0).bind fun cond hcond =>
      (gives_expect _).bind fun _ _ => ih.choice.bind fun no hno =>
        gives_pure (.ternary hm hcond hyes hno)
  · exact gives_pure hyes

theorem GivesForms.level_succ (i : Nat) :
    Gives (Expr.InDialect mode) (Parse.level mode.grammar (n + 1) i) := by
  rw [Parse.level]
  split
  · exact ih.operand
  · next operators hl =>
    have ho := mode.ofDialect_of_mem_levels _ (List.mem_of_getElem? hl)
    exact (ih.level (i + 1)).bind fun left hleft => ih.chain i ho hleft
  · next hl =>
    have hm : mode = .python := mode.ofDialect_of_mem_levels _ (List.mem_of_getElem? hl)
    refine (gives_eat _).bind fun b _ => ?_
    split
    · exact (ih.level i).bind fun e he => gives_pure (.unary hm _ he)
    · exact ih.level (i + 1)
  · next operators hl =>
    have hm : mode = .python := mode.ofDialect_of_mem_levels _ (List.mem_of_getElem? hl)
    refine (gives_sign? operators).bind fun r _ => ?_
    split
    · exact (ih.level i).bind fun e he => gives_pure (.unary hm _ he)
    · exact ih.level (i + 1)
  · next hl =>
    have hm : mode = .python := mode.ofDialect_of_mem_levels _ (List.mem_of_getElem? hl)
    refine ih.operand.bind fun base hbase => (gives_eat _).bind fun b _ => ?_
    split
    · exact (ih.level (i - 1)).bind fun e he => gives_pure (.binary (by rw [hm]; rfl) hbase he)
    · exact gives_pure hbase

theorem GivesForms.chain_succ (i : Nat) {operators : List (List Word × BinaryOp)}
    (ho : ∀ o ∈ operators, mode.hasOperator o.2 = true) {left : Expr} (h : left.InDialect mode) :
    Gives (Expr.InDialect mode) (Parse.chain mode.grammar (n + 1) i operators left) := by
  rw [Parse.chain]
  refine (gives_operator? operators).bind fun r hr => ?_
  split
  · next op =>
    obtain ⟨o, hmem, rfl⟩ := hr _ rfl
    exact (ih.level (i + 1)).bind fun right hright => ih.chain i ho (.binary (ho o hmem) h hright)
  · exact gives_pure h

theorem GivesForms.members_succ {base : Expr} (h : base.InDialect mode) :
    Gives (Expr.InDialect mode) (Parse.members mode.grammar (n + 1) base) := by
  rw [Parse.members]
  refine (gives_eat _).bind fun b _ => ?_
  split
  · exact gives_attributeName.bind fun name _ => ih.members (.attr h name)
  · refine (gives_eat _).bind fun b _ => ?_
    split
    · exact (ih.subscript h).bind fun e he => (gives_expect _).bind fun _ _ => ih.members he
    · refine (gives_check _).bind fun b _ => ?_
      split
      · next hb =>
        have hm := Mode.eq_python Grammar.calls rfl (Bool.and_eq_true_iff.mp hb).1
        exact gives_tail.bind fun _ _ => (ih.sequence _).bind fun args hargs =>
          ih.members (.call hm h hargs)
      · exact gives_pure h

theorem GivesForms.subscript_succ {base : Expr} (h : base.InDialect mode) :
    Gives (Expr.InDialect mode) (Parse.subscript mode.grammar (n + 1) base) := by
  rw [Parse.subscript]
  have hnone : ∀ e : Expr, none = some e → e.InDialect mode := by
    rintro _ ⟨⟩
  -- a bound is read or left out, and the reader goes on with it
  have bound : ∀ (b : Bool) (next : Option Expr → Parse Expr),
      (∀ r, (∀ e, r = some e → e.InDialect mode) → Gives (Expr.InDialect mode) (next r)) →
      Gives (Expr.InDialect mode)
        (if b then pure none >>= next else some <$> Parse.expression mode.grammar n >>= next) := by
    intro b next hnext
    cases b with
    | true => exact (gives_pure hnone).bind hnext
    | false =>
      refine (ih.expression.map fun e he => ?_).bind hnext
      rintro _ ⟨⟩
      exact he
  refine (gives_check _).bind fun b _ => bound b _ fun start hstart =>
    (gives_check _).bind fun c _ => ?_
  split
  · next hb =>
    have hm := Mode.eq_python Grammar.slices rfl (Bool.and_eq_true_iff.mp hb).1
    refine gives_tail.bind fun _ _ => (gives_check _).bind fun c₁ _ =>
      (gives_check _).bind fun c₂ _ => bound (c₁ || c₂) _ fun stop hstop =>
        (gives_eat _).bind fun d _ => ?_
    split
    · exact (gives_check _).bind fun c _ => bound c _ fun step hstep =>
        gives_pure (.slice hm h hstart hstop hstep)
    · exact gives_pure (.slice hm h hstart hstop hnone)
  · split
    · next key => exact gives_pure (.index h (hstart key rfl))
    · exact (never_expected _).gives

theorem GivesForms.sequence_succ (close : Symbol) :
    Gives (fun es => ∀ e ∈ es, e.InDialect mode) (Parse.sequence mode.grammar (n + 1) close) := by
  rw [Parse.sequence]
  refine (gives_eat _).bind fun b _ => ?_
  split
  · exact gives_pure (List.forall_mem_nil _)
  · refine ih.expression.bind fun first hfirst => (gives_eat _).bind fun b _ => ?_
    split
    · exact (ih.sequence close).bind fun more hmore =>
        gives_pure (List.forall_mem_cons.mpr ⟨hfirst, hmore⟩)
    · exact (gives_expect _).bind fun _ _ => gives_pure (List.forall_mem_singleton.mpr hfirst)

theorem GivesForms.primary_succ :
    Gives (Expr.InDialect mode) (Parse.primary mode.grammar (n + 1)) := by
  change Gives _ (advance >>= _)
  refine gives_advance.bind fun t ht => ?_
  obtain ⟨l, offset⟩ := t
  cases l with
  | int i => exact gives_pure (.literal trivial fun _ => ht)
  | float x => exact gives_pure (.literal trivial fun _ => ht)
  | str s => exact gives_pure (.literal trivial fun _ => trivial)
  | stop => exact (never_fault _ _).gives
  | word w =>
    cases w with
    | name s =>
      change Gives _ (nameExpr mode.grammar s offset)
      unfold nameExpr
      split
      · next hk => exact gives_pure (mode.inDialect_of_lookup_keywords hk)
      · split
        · exact (never_fault _ _).gives
        · exact gives_pure (.var s)
    | symbol s =>
      cases s with
      | minus =>
        dsimp only
        split
        · next hb =>
          have hm : mode ≠ .python := by
            rintro rfl
            cases hb
          refine gives_advance.bind fun t _ => ?_
          split
          · exact gives_pure (.literal trivial fun h => absurd h hm)
          · exact gives_pure (.literal trivial fun h => absurd h hm)
          · exact (never_fault _ _).gives
        · exact (never_fault _ _).gives
      | lparen => exact ih.group
      | lbracket => exact (ih.sequence _).bind fun items hitems => gives_pure (.list hitems)
      | lbrace =>
        dsimp only
        split
        · next hb => exact ih.braces (Mode.eq_python Grammar.collections rfl hb)
        · exact (never_fault _ _).gives
      | _ => exact (never_fault _ _).gives

theorem GivesForms.group_succ : Gives (Expr.InDialect mode) (Parse.group mode.grammar (n + 1)) := by
  -- parentheses hold tuples in one dialect and ranges in the other
  have python : ∀ b, (mode.grammar.collections && b) = true → mode = .python := fun b hb =>
    Mode.eq_python Grammar.collections rfl (Bool.and_eq_true_iff.mp hb).1
  have standard : ∀ b, (mode.grammar.ranges && b) = true → mode = .standard := by
    intro b hb
    cases mode with
    | standard => rfl
    | python => cases hb
  rw [Parse.group]
  refine (gives_check _).bind fun b _ => ?_
  split
  · next hb =>
    exact gives_tail.bind fun _ _ => gives_pure (.tuple (python _ hb) (List.forall_mem_nil _))
  · refine ih.expression.bind fun first hfirst => (gives_check _).bind fun b _ => ?_
    split
    · next hb =>
      exact gives_tail.bind fun _ _ => ih.expression.bind fun last hlast =>
        (gives_expect _).bind fun _ _ => gives_pure (.range (standard _ hb) hfirst hlast)
    · refine (gives_check _).bind fun b _ => ?_
      split
      · next hb =>
        exact gives_tail.bind fun _ _ => (ih.sequence _).bind fun items hitems =>
          gives_pure (.tuple (python _ hb) (List.forall_mem_cons.mpr ⟨hfirst, hitems⟩))
      · exact (gives_expect _).bind fun _ _ => gives_pure hfirst

theorem GivesForms.braces_succ (hm : mode = .python) :
    Gives (Expr.InDialect mode) (Parse.braces mode.grammar (n + 1)) := by
  rw [Parse.braces]
  refine (gives_eat _).bind fun b _ => ?_
  split
  · exact gives_pure (.dict hm (List.forall_mem_nil _) (List.forall_mem_nil _))
  · refine ih.expression.bind fun first hfirst => (gives_eat _).bind fun b _ => ?_
    split
    · refine ih.expression.bind fun value hvalue => (ih.entries hm).bind fun more hmore => ?_
      have hall : ∀ e ∈ (first, value) :: more, e.1.InDialect mode ∧ e.2.InDialect mode :=
        List.forall_mem_cons.mpr ⟨⟨hfirst, hvalue⟩, hmore⟩
      exact gives_pure (.dict hm (fun e he => (hall e he).1) fun e he => (hall e he).2)
    · refine (gives_eat _).bind fun b _ => ?_
      split
      · exact (ih.sequence _).bind fun items hitems =>
          gives_pure (.set hm (List.forall_mem_cons.mpr ⟨hfirst, hitems⟩))
      · exact (gives_expect _).bind fun _ _ =>
          gives_pure (.set hm (List.forall_mem_singleton.mpr hfirst))

theorem GivesForms.entries_succ (hm : mode = .python) :
    Gives (fun es => ∀ e ∈ es, e.1.InDialect mode ∧ e.2.InDialect mode)
      (Parse.entries mode.grammar (n + 1)) := by
  rw [Parse.entries]
  refine (gives_eat _).bind fun b _ => ?_
  split
  · refine (gives_eat _).bind fun b _ => ?_
    split
    · exact gives_pure (List.forall_mem_nil _)
    · exact ih.expression.bind fun key hkey => (gives_expect _).bind fun _ _ =>
        ih.expression.bind fun value hvalue => (ih.entries hm).bind fun more hmore =>
          gives_pure (List.forall_mem_cons.mpr ⟨⟨hkey, hvalue⟩, hmore⟩)
  · exact (gives_expect _).bind fun _ _ => gives_pure (List.forall_mem_nil _)

end

/-- The reader of expressions gives forms of the dialect. -/
theorem givesForms (mode : Mode) (n : Nat) : GivesForms mode n := by
  induction n with
  | zero => exact givesForms_zero mode
  | succ n ih => exact {
      expression := ih.choice.bind fun value hvalue => ih.filters hvalue
      filters := ih.filters_succ
      arguments := ih.arguments_succ
      choices := ih.choices_succ
      choice := ih.choice_succ
      level := ih.level_succ
      chain := ih.chain_succ
      operand := ih.primary.bind fun base hbase => ih.members hbase
      members := ih.members_succ
      subscript := ih.subscript_succ
      sequence := ih.sequence_succ
      primary := ih.primary_succ
      group := ih.group_succ
      braces := ih.braces_succ
      entries := ih.entries_succ }

end Parse

/-- An expression that has been read is built from the forms of its dialect. -/
theorem Expr.inDialect_of_parse {mode : Mode} {source : String} {base : Nat} {e : Expr}
    (h : Expr.parse mode source base = .ok e) : e.InDialect mode := by
  obtain ⟨ts, t, hts, hrun, -⟩ := Parse.whole_eq_ok_iff.mp h
  exact ((Parse.givesForms mode _).expression _ _ _ (TokenStream.isUnsigned_of_tokens hts) hrun).1

end TemplateEngine
