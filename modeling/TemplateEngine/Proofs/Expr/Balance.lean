import TemplateEngine.Proofs.Except
import TemplateEngine.Proofs.Expr.Tokens

/-!
# Braces in expressions

What an expression consumes is a row of tokens whose braces are balanced, and where the tokens
stand does not matter to it.  Both are one property of readers (`Parse.Balances`), which `pure`,
`bind` and the readers of single tokens have; so every function of the reader of expressions has it
(`Parse.balanced`), by induction on the bound on nesting.  So whether a text is an expression, and
which one, is a matter of its tokens alone (`Expr.parse_eq_ok_iff`), and their braces are balanced
(`Spells.closes`).
-/

namespace TemplateEngine

/-! ### Braces -/

/-- The number of braces open behind a row of tokens, with `d` open before it. -/
def braceDepth? : Nat → List Lexeme → Option Nat
  | d, [] => some d
  | d, .word (.symbol .lbrace) :: ls => braceDepth? (d + 1) ls
  | 0, .word (.symbol .rbrace) :: _ => none
  | d + 1, .word (.symbol .rbrace) :: ls => braceDepth? d ls
  | d, _ :: ls => braceDepth? d ls

/-- The token is no brace. -/
def Lexeme.Unbraced (l : Lexeme) : Prop :=
  l ≠ .word (.symbol .lbrace) ∧ l ≠ .word (.symbol .rbrace)

instance (l : Lexeme) : Decidable l.Unbraced := inferInstanceAs (Decidable (_ ∧ _))

theorem unbraced_name (s : String) : (Lexeme.word (.name s)).Unbraced := ⟨nofun, nofun⟩

theorem braceDepth?_cons {l : Lexeme} (h : l.Unbraced) (d : Nat) (ls : List Lexeme) :
    braceDepth? d (l :: ls) = braceDepth? d ls :=
  braceDepth?.eq_5 d l ls h.1 (fun _ => h.2) (fun _ _ => h.2)

/-- The number of braces that a token opens. -/
def Lexeme.opening : Lexeme → Nat
  | .word (.symbol .lbrace) => 1
  | _ => 0

theorem braceDepth?_opening {l : Lexeme} (h : l ≠ .word (.symbol .rbrace)) (d : Nat)
    (ls : List Lexeme) : braceDepth? d (l :: ls) = braceDepth? (d + l.opening) ls := by
  unfold Lexeme.opening
  split
  · rfl
  · next hl => exact braceDepth?_cons ⟨hl, h⟩ d ls

theorem braceDepth?_append (d : Nat) (ls ms : List Lexeme) :
    braceDepth? d (ls ++ ms) = (braceDepth? d ls).bind fun d' => braceDepth? d' ms := by
  fun_induction braceDepth? d ls <;> simp_all [braceDepth?]

/-- No operator of the level is spelled with a brace. -/
def Level.Unbraced : Level → Prop
  | .between operators => ∀ o ∈ operators, ∀ w ∈ o.1, (Lexeme.word w).Unbraced
  | .signs operators => ∀ o ∈ operators, (Lexeme.word (.symbol o.1)).Unbraced
  | .negation | .power => True

/-- No operator of the grammar is spelled with a brace. -/
def Grammar.Unbraced (g : Grammar) : Prop := ∀ level ∈ g.levels, level.Unbraced

instance : (level : Level) → Decidable level.Unbraced
  | .between operators =>
    inferInstanceAs (Decidable (∀ o ∈ operators, ∀ w ∈ o.1, (Lexeme.word w).Unbraced))
  | .signs operators =>
    inferInstanceAs (Decidable (∀ o ∈ operators, (Lexeme.word (.symbol o.1)).Unbraced))
  | .negation | .power => inferInstanceAs (Decidable True)

instance (g : Grammar) : Decidable g.Unbraced :=
  inferInstanceAs (Decidable (∀ level ∈ g.levels, level.Unbraced))

theorem Mode.unbraced_grammar (mode : Mode) : mode.grammar.Unbraced := by
  cases mode <;> decide

/-- The tokens close `k` braces more than they open. -/
def Closes (k : Nat) (ls : List Lexeme) : Prop := ∀ d, braceDepth? (d + k) ls = some d

theorem closes_nil : Closes 0 [] := fun _ => rfl

theorem Closes.cons {l : Lexeme} {k : Nat} {ls : List Lexeme} (hl : l.Unbraced) (h : Closes k ls) :
    Closes k (l :: ls) :=
  fun d => by rw [braceDepth?_cons hl, h]

theorem Closes.append {j k : Nat} {ls ms : List Lexeme} (hl : Closes j ls) (hm : Closes k ms) :
    Closes (k + j) (ls ++ ms) := by
  intro d
  rw [braceDepth?_append, ← Nat.add_assoc, hl, Option.bind_some, hm]

/-- The contents of the tokens that are left. -/
def TokenStream.lexemes (s : TokenStream) : List Lexeme := s.rest.map Token.lexeme

theorem TokenStream.peek_lexeme (s : TokenStream) : s.peek.lexeme = s.lexemes.headD .stop := by
  obtain ⟨_ | ⟨t, rest⟩, stop⟩ := s <;> rfl

theorem TokenStream.lexemes_tail (s : TokenStream) : s.tail.lexemes = s.lexemes.tail := by
  simp [lexemes, tail]

namespace Parse

variable {α β : Type}

/-! ### Balanced readers -/

/-- In front of the token `l`, the reader consumes tokens that close `k` braces more than they
open, and the other reader does the same with the same tokens at any place. -/
def BalancesAt (l : Lexeme) (k : Nat) (p p' : Parse α) : Prop :=
  ∀ s a t, s.peek.lexeme = l → p s = .ok (a, t) →
    (∃ used, s.lexemes = used ++ t.lexemes ∧ Closes k used) ∧
      ∀ s', s'.lexemes = s.lexemes → ∃ t', p' s' = .ok (a, t') ∧ t'.lexemes = t.lexemes

/-- The same in front of every token. -/
def Balances (k : Nat) (p p' : Parse α) : Prop := ∀ l, BalancesAt l k p p'

/-- The reader has no result. -/
def Never (p : Parse α) : Prop := ∀ s x, p s ≠ .ok x

theorem never_fault (f : ParseFault) (offset : Nat) : Never (fault f offset : Parse α) := nofun

theorem never_peek {f : Token → Parse α} (h : ∀ t, Never (f t)) : Never (peek >>= f) :=
  fun s x e => h s.peek s x e

theorem never_expected (what : String) : Never (expected what : Parse α) :=
  never_peek fun _ => never_fault _ _

theorem Never.balances {p p' : Parse α} {k : Nat} (h : Never p) : Balances k p p' :=
  fun _ s a t _ e => absurd e (h s (a, t))

theorem balances_pure (a : α) : Balances 0 (pure a : Parse α) (pure a) := by
  intro l s b t _ e
  cases e
  exact ⟨⟨[], rfl, closes_nil⟩, fun s' hs => ⟨s', rfl, hs⟩⟩

section
variable {l : Lexeme} {k : Nat} {p p' : Parse α} {f f' : α → Parse β}

/-- A reader and a second one behind it, of which one closes braces. -/
theorem balancesAt_bind {i j : Nat} (hp : BalancesAt l i p p')
    (hf : ∀ a, Balances j (f a) (f' a)) : BalancesAt l (j + i) (p >>= f) (p' >>= f') := by
  intro s b t hl e
  obtain ⟨⟨a, s₁⟩, h₁, h₂⟩ := bind_eq_ok_iff.mp e
  obtain ⟨⟨used₁, he₁, hc₁⟩, hp'⟩ := hp s a s₁ hl h₁
  obtain ⟨⟨used₂, he₂, hc₂⟩, hf'⟩ := hf a _ s₁ b t rfl h₂
  refine ⟨⟨used₁ ++ used₂, by rw [he₁, he₂, List.append_assoc], hc₁.append hc₂⟩, fun s' hs => ?_⟩
  obtain ⟨t₁, e₁, ht₁⟩ := hp' s' hs
  obtain ⟨t₂, e₂, ht₂⟩ := hf' t₁ ht₁
  exact ⟨t₂, bind_eq_ok_iff.mpr ⟨(a, t₁), e₁, e₂⟩, ht₂⟩

theorem Balances.bind (hp : Balances 0 p p') (hf : ∀ a, Balances k (f a) (f' a)) :
    Balances k (p >>= f) (p' >>= f') :=
  fun l => balancesAt_bind (hp l) hf

theorem Balances.andThen (hp : Balances k p p') (hf : ∀ a, Balances 0 (f a) (f' a)) :
    Balances k (p >>= f) (p' >>= f') :=
  fun l => by simpa using balancesAt_bind (hp l) hf

theorem Balances.map (hp : Balances k p p') (g : α → β) : Balances k (g <$> p) (g <$> p') := by
  rw [map_eq_pure_bind, map_eq_pure_bind]
  exact hp.andThen fun a => balances_pure (g a)

theorem balancesAt_peek {f f' : Token → Parse β}
    (h : ∀ offset offset', BalancesAt l k (f ⟨l, offset⟩) (f' ⟨l, offset'⟩)) :
    BalancesAt l k (peek >>= f) (peek >>= f') := by
  intro s b t hl e
  have hs : s.peek = ⟨l, s.peek.offset⟩ := by rw [← hl]
  have e' : f s.peek s = .ok (b, t) := e
  rw [hs] at e'
  refine ⟨(h _ 0 s b t hl e').1, fun s' hs' => ?_⟩
  have hl' : s'.peek = ⟨l, s'.peek.offset⟩ := by
    rw [← hl, s.peek_lexeme, ← hs', ← s'.peek_lexeme]
  obtain ⟨t', e₂, ht⟩ := (h _ s'.peek.offset s b t hl e').2 s' hs'
  refine ⟨t', ?_, ht⟩
  change f' s'.peek s' = _
  rw [hl', e₂]

/-- The next token consumed; it may be a brace. -/
theorem balancesAt_tail {i : Nat} {p p' : Parse β}
    (hl : ∀ d ls, braceDepth? (d + k) (l :: ls) = braceDepth? (d + i) ls)
    (h : Balances i p p') :
    BalancesAt l k (modify TokenStream.tail >>= fun _ => p)
      (modify TokenStream.tail >>= fun _ => p') := by
  intro s b t hs e
  have e' : p s.tail = .ok (b, t) := e
  obtain ⟨⟨used, hu, hc⟩, hp'⟩ := h _ s.tail b t rfl e'
  rw [s.lexemes_tail] at hu
  constructor
  · rw [s.peek_lexeme] at hs
    cases hls : s.lexemes with
    | nil =>
      -- the end is not consumed, but it is no brace, so as many braces are open behind it
      rw [hls] at hs hu
      cases hs
      refine ⟨used, hu, fun d => ?_⟩
      rw [← hc d, ← hl d used, braceDepth?_cons (by decide)]
    | cons m ms =>
      rw [hls] at hs hu
      cases hs
      exact ⟨m :: used, by rw [List.cons_append, ← hu]; rfl, fun d => (hl d used).trans (hc d)⟩
  · intro s' hs'
    exact hp' s'.tail (by rw [s'.lexemes_tail, hs', s.lexemes_tail])

theorem Balances.tail {p p' : Parse β} (hl : l.Unbraced) (h : Balances k p p') :
    BalancesAt l k (modify TokenStream.tail >>= fun _ => p)
      (modify TokenStream.tail >>= fun _ => p') :=
  balancesAt_tail (fun d => braceDepth?_cons hl (d + k)) h

theorem balances_check (w : Word) : Balances 0 (check w) (check w) :=
  fun _ => balancesAt_peek fun _ _ => balances_pure _ _

theorem eat_bind (w : Word) (f : Bool → Parse β) :
    eat w >>= f = peek >>= fun t =>
      if t.lexeme == .word w then modify TokenStream.tail >>= fun _ => f true else f false := by
  simp only [eat, check, bind_assoc, pure_bind]
  refine bind_congr fun t => ?_
  split <;> simp only [bind_assoc, pure_bind]

/-- A word that is consumed if it comes next. -/
theorem balancesAt_eat {w : Word} {f f' : Bool → Parse β}
    (ht : l = .word w → BalancesAt l k (modify TokenStream.tail >>= fun _ => f true)
      (modify TokenStream.tail >>= fun _ => f' true))
    (hf : l ≠ .word w → BalancesAt l k (f false) (f' false)) :
    BalancesAt l k (eat w >>= f) (eat w >>= f') := by
  rw [eat_bind, eat_bind]
  refine balancesAt_peek fun offset offset' => ?_
  by_cases hw : l = .word w
  · simpa [hw] using hw ▸ ht hw
  · simpa [hw] using hf hw

theorem Balances.eat {w : Word} {f f' : Bool → Parse β} (hw : (Lexeme.word w).Unbraced)
    (ht : Balances k (f true) (f' true)) (hf : Balances k (f false) (f' false)) :
    Balances k (Parse.eat w >>= f) (Parse.eat w >>= f') :=
  fun l => balancesAt_eat (fun hl => (hl ▸ Balances.tail hw ht : BalancesAt l k _ _)) fun _ => hf l

/-- A closing brace that is consumed if it comes next. -/
theorem Balances.eat_rbrace {f f' : Bool → Parse β} (ht : Balances k (f true) (f' true))
    (hf : Balances (k + 1) (f false) (f' false)) :
    Balances (k + 1) (Parse.eat (.symbol .rbrace) >>= f) (Parse.eat (.symbol .rbrace) >>= f') :=
  fun l => balancesAt_eat (fun hl => hl ▸ balancesAt_tail (fun _ _ => rfl) ht) fun _ => hf l

/-- A word that is consumed if it comes next and the grammar has it. -/
theorem Balances.check_tail {w : Word} {b : Bool} {p p' q q' : Parse β}
    (hw : (Lexeme.word w).Unbraced) (hp : Balances k p p') (hq : Balances k q q') :
    Balances k
      (check w >>= fun c => if b && c then modify TokenStream.tail >>= fun _ => p else q)
      (check w >>= fun c => if b && c then modify TokenStream.tail >>= fun _ => p' else q') := by
  intro l
  simp only [check, bind_assoc, pure_bind]
  refine balancesAt_peek fun offset offset' => ?_
  by_cases hl : (b && l == .word w) = true
  · simp only [hl, if_true]
    rw [Bool.and_eq_true, beq_iff_eq] at hl
    exact hl.2 ▸ Balances.tail hw hp
  · simp only [hl]
    exact hq l

theorem Balances.expect {w : Word} (hw : (Lexeme.word w).Unbraced) :
    Balances 0 (Parse.expect w) (Parse.expect w) :=
  Balances.eat hw (balances_pure ()) (never_expected _).balances

theorem balances_expect_rbrace :
    Balances 1 (expect (.symbol .rbrace)) (expect (.symbol .rbrace)) :=
  Balances.eat_rbrace (balances_pure ()) (never_expected _).balances

end

/-! ### Readers of single tokens -/

theorem balances_filterName : Balances 0 filterName filterName := by
  intro l
  refine balancesAt_peek fun offset offset' => ?_
  dsimp only
  split
  · exact Balances.tail (unbraced_name _) (balances_pure _)
  · exact (never_expected _).balances _

theorem balances_nameExpr (g : Grammar) (name : String) (offset offset' : Nat) :
    Balances 0 (nameExpr g name offset) (nameExpr g name offset') := by
  unfold nameExpr
  split
  · exact balances_pure _
  · split
    · exact (never_fault _ _).balances
    · exact balances_pure _

theorem advance_bind (f : Token → Parse β) :
    advance >>= f = peek >>= fun t => modify TokenStream.tail >>= fun _ => f t := rfl

/-- A token that is consumed, when nothing goes on behind a closing brace. -/
theorem balances_advance {f f' : Token → Parse β}
    (hr : ∀ offset, Never (f ⟨.word (.symbol .rbrace), offset⟩))
    (h : ∀ l offset offset', Balances l.opening (f ⟨l, offset⟩) (f' ⟨l, offset'⟩)) :
    Balances 0 (advance >>= f) (advance >>= f') := by
  intro l
  rw [advance_bind, advance_bind]
  refine balancesAt_peek fun offset offset' => ?_
  by_cases hl : l = .word (.symbol .rbrace)
  · subst hl
    exact Never.balances (fun s x e => hr offset s.tail x e) _
  · exact balancesAt_tail (fun d ls => braceDepth?_opening hl d ls) (h l offset offset')

theorem balances_attributeName : Balances 0 attributeName attributeName := by
  refine balances_advance (fun _ => never_fault _ _) fun l offset offset' => ?_
  dsimp only
  split
  · exact balances_pure _
  · exact balances_pure _
  · exact (never_fault _ _).balances

theorem balances_negativeNumber : Balances 0 negativeNumber negativeNumber := by
  refine balances_advance (fun _ => never_fault _ _) fun l offset offset' => ?_
  dsimp only
  split
  · exact balances_pure _
  · exact balances_pure _
  · exact (never_fault _ _).balances

/-! ### Operators -/

theorem balances_sign? {operators : List (Symbol × UnaryOp)}
    (h : ∀ o ∈ operators, (Lexeme.word (.symbol o.1)).Unbraced) :
    Balances 0 (sign? operators) (sign? operators) := by
  induction operators with
  | nil => exact balances_pure none
  | cons o more ih =>
    exact Balances.eat (h o (by simp)) (balances_pure _) (ih fun o ho => h o (by simp [ho]))

theorem closes_words {words : List Word} (h : ∀ w ∈ words, (Lexeme.word w).Unbraced) :
    Closes 0 (words.map .word) := by
  induction words with
  | nil => exact closes_nil
  | cons w words ih => exact .cons (h w (by simp)) (ih fun w hw => h w (by simp [hw]))

theorem balances_operator? {operators : List (List Word × BinaryOp)}
    (h : ∀ o ∈ operators, ∀ w ∈ o.1, (Lexeme.word w).Unbraced) :
    Balances 0 (operator? operators) (operator? operators) := by
  induction operators with
  | nil => exact balances_pure none
  | cons o more ih =>
    obtain ⟨words, op⟩ := o
    have ih := ih fun o ho => h o (by simp [ho])
    have run : ∀ s, operator? ((words, op) :: more) s =
        if (words.map Lexeme.word).isPrefixOf s.lexemes then
          .ok (some op, { s with rest := s.rest.drop words.length })
        else operator? more s := by
      intro s
      rw [operator?]
      change (if s.startsWith words then _ else _ : Parse (Option BinaryOp)) s = _
      rw [TokenStream.startsWith, ← TokenStream.lexemes]
      split <;> rfl
    have drop : ∀ (s : TokenStream) (tail : List Lexeme),
        s.lexemes = words.map Lexeme.word ++ tail →
          TokenStream.lexemes { s with rest := s.rest.drop words.length } = tail := by
      intro s tail hs
      have hd := congrArg (List.drop words.length) hs
      simpa [TokenStream.lexemes, ← List.map_drop] using hd
    intro l s a t hl e
    rw [run] at e
    split at e
    · next hw =>
      cases e
      obtain ⟨tail, ht⟩ := List.isPrefixOf_iff_prefix.mp hw
      rw [drop s tail ht.symm]
      refine ⟨⟨_, ht.symm, closes_words (h (words, op) (by simp))⟩, fun s' hs => ?_⟩
      exact ⟨_, by rw [run, hs, if_pos hw], drop s' tail (hs.trans ht.symm)⟩
    · next hw =>
      obtain ⟨hused, hs'⟩ := ih l s a t hl e
      refine ⟨hused, fun s' hs => ?_⟩
      rw [run, hs, if_neg hw]
      exact hs' s' hs

/-! ### Expressions -/

/-- All functions of the reader of expressions are balanced with the bound `n`; those that go on
behind an opening brace close it. -/
structure Balanced (g : Grammar) (n : Nat) : Prop where
  expression : Balances 0 (expression g n) (expression g n)
  filters (value : Expr) : Balances 0 (filters g n value) (filters g n value)
  arguments : Balances 0 (arguments g n) (arguments g n)
  choices : Balances 0 (choices g n) (choices g n)
  choice : Balances 0 (choice g n) (choice g n)
  level (i : Nat) : Balances 0 (level g n i) (level g n i)
  chain (i : Nat) {operators : List (List Word × BinaryOp)}
    (h : ∀ o ∈ operators, ∀ w ∈ o.1, (Lexeme.word w).Unbraced) (left : Expr) :
    Balances 0 (chain g n i operators left) (chain g n i operators left)
  operand : Balances 0 (operand g n) (operand g n)
  members (base : Expr) : Balances 0 (members g n base) (members g n base)
  subscript (base : Expr) : Balances 0 (subscript g n base) (subscript g n base)
  sequence {close : Symbol} (h : (Lexeme.word (.symbol close)).Unbraced) :
    Balances 0 (sequence g n close) (sequence g n close)
  items : Balances 1 (Parse.sequence g n .rbrace) (Parse.sequence g n .rbrace)
  primary : Balances 0 (primary g n) (primary g n)
  group : Balances 0 (group g n) (group g n)
  braces : Balances 1 (braces g n) (braces g n)
  entries : Balances 1 (entries g n) (entries g n)

theorem never_tooDeep {α : Type} : Never (do fault .tooDeep (← peek).offset : Parse α) :=
  never_peek fun _ => never_fault _ _

theorem balanced_zero (g : Grammar) : Balanced g 0 where
  expression := never_tooDeep.balances
  filters _ := never_tooDeep.balances
  arguments := never_tooDeep.balances
  choices := never_tooDeep.balances
  choice := never_tooDeep.balances
  level _ := never_tooDeep.balances
  chain _ _ _ _ := never_tooDeep.balances
  operand := never_tooDeep.balances
  members _ := never_tooDeep.balances
  subscript _ := never_tooDeep.balances
  sequence _ := never_tooDeep.balances
  items := never_tooDeep.balances
  primary := never_tooDeep.balances
  group := never_tooDeep.balances
  braces := never_tooDeep.balances
  entries := never_tooDeep.balances

variable {g : Grammar} {n : Nat}

theorem Balanced.level_succ (hg : g.Unbraced) (ih : Balanced g n) (i : Nat) :
    Balances 0 (Parse.level g (n + 1) i) (Parse.level g (n + 1) i) := by
  rw [Parse.level]
  split
  · exact ih.operand
  · next operators hl =>
    refine (ih.level _).bind fun left => ih.chain i ?_ left
    exact hg _ (List.mem_of_getElem? hl)
  · exact Balances.eat (unbraced_name _) ((ih.level i).bind fun e => balances_pure _) (ih.level _)
  · next operators hl =>
    refine (balances_sign? (hg _ (List.mem_of_getElem? hl))).bind fun sign => ?_
    cases sign with
    | some op => exact (ih.level i).bind fun e => balances_pure _
    | none => exact ih.level _
  · refine ih.operand.bind fun base => Balances.eat (by decide) ?_ (balances_pure _)
    exact (ih.level _).bind fun e => balances_pure _

theorem Balanced.members_succ (ih : Balanced g n) (base : Expr) :
    Balances 0 (Parse.members g (n + 1) base) (Parse.members g (n + 1) base) := by
  rw [Parse.members]
  refine Balances.eat (by decide) ?_ (Balances.eat (by decide) ?_ ?_)
  · exact balances_attributeName.bind fun name => ih.members _
  · exact (ih.subscript base).bind fun e => (Balances.expect (by decide)).bind fun _ => ih.members _
  · exact Balances.check_tail (by decide)
      ((ih.sequence (by decide)).bind fun args => ih.members _) (balances_pure _)

theorem Balanced.subscript_succ (ih : Balanced g n) (base : Expr) :
    Balances 0 (Parse.subscript g (n + 1) base) (Parse.subscript g (n + 1) base) := by
  rw [Parse.subscript]
  -- a bound is read or left out, and the reader goes on with it
  have bound : ∀ (b : Bool) (next : Option Expr → Parse Expr), (∀ e, Balances 0 (next e) (next e)) →
      Balances 0 (if b then pure none >>= next else some <$> Parse.expression g n >>= next)
        (if b then pure none >>= next else some <$> Parse.expression g n >>= next) := by
    intro b next hnext
    cases b with
    | true => exact (balances_pure none).bind hnext
    | false => exact (ih.expression.map some).bind hnext
  refine (balances_check _).bind fun c => bound c _ fun start => ?_
  refine Balances.check_tail (by decide) ?_ ?_
  · refine (balances_check _).bind fun c₁ => (balances_check _).bind fun c₂ =>
      bound (c₁ || c₂) _ fun stop => ?_
    refine Balances.eat (by decide) ?_ ((balances_pure none).bind fun step => balances_pure _)
    exact (balances_check _).bind fun c => bound c _ fun step => balances_pure _
  · cases start with
    | some key => exact balances_pure _
    | none => exact (never_expected _).balances

theorem Balanced.group_succ (ih : Balanced g n) :
    Balances 0 (Parse.group g (n + 1)) (Parse.group g (n + 1)) := by
  rw [Parse.group]
  refine Balances.check_tail (by decide) (balances_pure _) (ih.expression.bind fun first => ?_)
  refine Balances.check_tail (by decide) ?_ (Balances.check_tail (by decide) ?_ ?_)
  · exact ih.expression.bind fun last => (Balances.expect (by decide)).bind fun _ => balances_pure _
  · exact (ih.sequence (by decide)).bind fun items => balances_pure _
  · exact (Balances.expect (by decide)).bind fun _ => balances_pure _

theorem Balanced.primary_succ (ih : Balanced g n) :
    Balances 0 (Parse.primary g (n + 1)) (Parse.primary g (n + 1)) := by
  change Balances 0 (advance >>= _) (advance >>= _)
  refine balances_advance (fun _ => never_fault _ _) fun l offset offset' => ?_
  cases l with
  | int i => exact balances_pure _
  | float x => exact balances_pure _
  | str s => exact balances_pure _
  | stop => exact (never_fault _ _).balances
  | word w =>
    cases w with
    | name s => exact balances_nameExpr g _ _ _
    | symbol s =>
      cases s with
      | minus =>
        dsimp only
        split
        · exact balances_negativeNumber
        · exact (never_fault _ _).balances
      | lparen => exact ih.group
      | lbracket => exact (ih.sequence (by decide)).bind fun items => balances_pure _
      | lbrace =>
        dsimp only
        split
        · exact ih.braces
        · exact (never_fault _ _).balances
      | _ => exact (never_fault _ _).balances

theorem Balanced.sequence_succ (ih : Balanced g n) {close : Symbol}
    (h : (Lexeme.word (.symbol close)).Unbraced) :
    Balances 0 (Parse.sequence g (n + 1) close) (Parse.sequence g (n + 1) close) := by
  rw [Parse.sequence]
  refine Balances.eat h (balances_pure _) (ih.expression.bind fun first => ?_)
  refine Balances.eat (by decide) ?_ ?_
  · exact (ih.sequence h).bind fun more => balances_pure _
  · exact (Balances.expect h).bind fun _ => balances_pure _

theorem Balanced.items_succ (ih : Balanced g n) :
    Balances 1 (Parse.sequence g (n + 1) .rbrace) (Parse.sequence g (n + 1) .rbrace) := by
  rw [Parse.sequence]
  refine Balances.eat_rbrace (balances_pure _) (ih.expression.bind fun first => ?_)
  refine Balances.eat (by decide) ?_ ?_
  · exact ih.items.andThen fun more => balances_pure _
  · exact balances_expect_rbrace.andThen fun _ => balances_pure _

theorem Balanced.braces_succ (ih : Balanced g n) :
    Balances 1 (Parse.braces g (n + 1)) (Parse.braces g (n + 1)) := by
  rw [Parse.braces]
  refine Balances.eat_rbrace (balances_pure _) (ih.expression.bind fun first => ?_)
  refine Balances.eat (by decide) ?_ (Balances.eat (by decide) ?_ ?_)
  · exact ih.expression.bind fun value => ih.entries.andThen fun es => balances_pure _
  · exact ih.items.andThen fun more => balances_pure _
  · exact balances_expect_rbrace.andThen fun _ => balances_pure _

theorem Balanced.entries_succ (ih : Balanced g n) :
    Balances 1 (Parse.entries g (n + 1)) (Parse.entries g (n + 1)) := by
  rw [Parse.entries]
  refine Balances.eat (by decide) (Balances.eat_rbrace (balances_pure _) ?_) ?_
  · refine ih.expression.bind fun key => (Balances.expect (by decide)).bind fun _ => ?_
    exact ih.expression.bind fun value => ih.entries.andThen fun es => balances_pure _
  · exact balances_expect_rbrace.andThen fun _ => balances_pure _

/-- The reader of expressions is balanced. -/
theorem balanced (hg : g.Unbraced) (n : Nat) : Balanced g n := by
  induction n with
  | zero => exact balanced_zero g
  | succ n ih =>
    exact {
      expression := by
        rw [Parse.expression]
        exact ih.choice.bind fun value => ih.filters value
      filters := fun value => by
        rw [Parse.filters]
        refine Balances.eat (by decide) ?_ (balances_pure _)
        exact balances_filterName.bind fun name => ih.arguments.bind fun args => ih.filters _
      arguments := by
        rw [Parse.arguments]
        refine Balances.eat (by decide) ih.choices (Balances.eat (by decide) ?_ (balances_pure _))
        exact ih.sequence (by decide)
      choices := by
        rw [Parse.choices]
        refine ih.choice.bind fun first => Balances.eat (by decide) ?_ (balances_pure _)
        exact ih.choices.bind fun more => balances_pure _
      choice := by
        rw [Parse.choice]
        refine (ih.level 0).bind fun yes =>
          Balances.check_tail (unbraced_name _) ?_ (balances_pure _)
        refine (ih.level 0).bind fun cond => (Balances.expect (unbraced_name _)).bind fun _ => ?_
        exact ih.choice.bind fun no => balances_pure _
      level := ih.level_succ hg
      chain := fun i operators h left => by
        rw [Parse.chain]
        refine (balances_operator? h).bind fun op => ?_
        cases op with
        | some op => exact (ih.level _).bind fun right => ih.chain i h _
        | none => exact balances_pure _
      operand := by
        rw [Parse.operand]
        exact ih.primary.bind fun base => ih.members base
      members := ih.members_succ
      subscript := ih.subscript_succ
      sequence := ih.sequence_succ
      items := ih.items_succ
      primary := ih.primary_succ
      group := ih.group_succ
      braces := ih.braces_succ
      entries := ih.entries_succ }

/-! ### Whole texts -/

theorem finish_eq_ok_iff {s t : TokenStream} :
    finish s = .ok ((), t) ↔ s.peek.lexeme = .stop ∧ t = s := by
  change (if s.peek.lexeme == .stop then pure () else _ : Parse Unit) s = _ ↔ _
  split
  · next h =>
    rw [beq_iff_eq] at h
    constructor
    · intro e
      cases e
      exact ⟨h, rfl⟩
    · rintro ⟨-, rfl⟩
      rfl
  · next h =>
    rw [beq_iff_eq] at h
    exact ⟨nofun, fun e => absurd e.1 h⟩

/-- A whole text is read when its tokens are, up to the end. -/
theorem whole_eq_ok_iff {p : Parse α} {source : String} {base : Nat} {a : α} :
    p.whole source base = .ok a ↔ ∃ ts t, TokenStream.tokens base source.toList = .ok ts ∧
      p ⟨ts, base + Text.byteLength source.toList⟩ = .ok (a, t) ∧ t.peek.lexeme = .stop := by
  have hrun : ∀ s, (do let a ← p; finish; return a : Parse α).run s =
      (p s >>= fun x => finish x.2 >>= fun y => .ok (x.1, y.2)) := fun _ => rfl
  simp only [whole, hrun, TokenStream.ofString]
  constructor
  · intro h
    obtain ⟨s, hs, hres⟩ := bind_eq_ok_iff.mp h
    obtain ⟨ts, hts, hs⟩ := bind_eq_ok_iff.mp hs
    cases hs
    obtain ⟨⟨a', u⟩, hrun, ha⟩ := bind_eq_ok_iff.mp hres
    cases ha
    obtain ⟨⟨a', t⟩, hp, hfin⟩ := bind_eq_ok_iff.mp hrun
    obtain ⟨⟨⟨⟩, u'⟩, hf, he⟩ := bind_eq_ok_iff.mp hfin
    cases he
    exact ⟨ts, t, hts, hp, (finish_eq_ok_iff.mp hf).1⟩
  · rintro ⟨ts, t, hts, hp, ht⟩
    refine bind_eq_ok_iff.mpr ⟨_, bind_eq_ok_iff.mpr ⟨ts, hts, rfl⟩, ?_⟩
    refine bind_eq_ok_iff.mpr ⟨(a, t), bind_eq_ok_iff.mpr ⟨(a, t), hp, ?_⟩, rfl⟩
    exact bind_eq_ok_iff.mpr ⟨((), t), finish_eq_ok_iff.mpr ⟨ht, rfl⟩, rfl⟩

/-- A reader with its bound on nesting, which depends on the number of tokens only. -/
theorem balances_depth {p : Nat → Parse α} (h : ∀ n, Balances 0 (p n) (p n)) (g : Grammar) :
    Balances 0 (do p ((← get).depth g)) (do p ((← get).depth g)) := by
  intro l s a t hl e
  obtain ⟨hused, hs'⟩ := h (s.depth g) l s a t hl e
  refine ⟨hused, fun s' hs => ?_⟩
  have hlen : s'.rest.length = s.rest.length := by
    simpa [TokenStream.lexemes] using congrArg List.length hs
  -- as many tokens are left, so the bound on nesting is the same
  have hd : s'.depth g = s.depth g := by rw [TokenStream.depth, TokenStream.depth, hlen]
  obtain ⟨t', e', ht⟩ := hs' s' hs
  exact ⟨t', by rw [← e', ← hd]; rfl, ht⟩

theorem balances_expr (hg : g.Unbraced) : Balances 0 (expr g) (expr g) :=
  balances_depth (fun n => (balanced hg n).expression) g

theorem balances_plainExpr (hg : g.Unbraced) : Balances 0 (plainExpr g) (plainExpr g) :=
  balances_depth (fun n => (balanced hg n).choice) g

end Parse

/-- The tokens spell the expression, and nothing is left of them. -/
def Spells (mode : Mode) (ls : List Lexeme) (x : Expr) : Prop :=
  ∀ s : TokenStream, s.lexemes = ls → ∃ t, Parse.expr mode.grammar s = .ok (x, t) ∧ t.lexemes = []

/-- A text is an expression when its tokens spell it, wherever the text stands. -/
theorem Expr.parse_eq_ok_iff {mode : Mode} {source : String} {base : Nat} {x : Expr} :
    Expr.parse mode source base = .ok x ↔
      ∃ ts, TokenStream.tokens base source.toList = .ok ts ∧
        Spells mode (ts.map Token.lexeme) x := by
  rw [Expr.parse, Parse.whole_eq_ok_iff]
  constructor
  · rintro ⟨ts, t, hts, hp, ht⟩
    obtain ⟨⟨used, hu, -⟩, hs'⟩ := Parse.balances_expr mode.unbraced_grammar _ _ _ _ rfl hp
    -- the end is not among the tokens, so none of them is left before it
    have hnil : t.lexemes = [] := by
      rw [t.peek_lexeme] at ht
      cases hl : t.lexemes with
      | nil => rfl
      | cons m ms =>
        rw [hl] at ht hu
        have hmem : m ∈ ts.map Token.lexeme := by
          rw [show ts.map Token.lexeme = used ++ m :: ms from hu]
          simp
        obtain ⟨tok, hm, he⟩ := List.mem_map.mp hmem
        exact absurd (he.trans ht) (TokenStream.ne_stop_of_mem_tokens hts tok hm)
    refine ⟨ts, hts, fun s hs => ?_⟩
    obtain ⟨t', e', ht'⟩ := hs' s hs
    exact ⟨t', e', ht'.trans hnil⟩
  · rintro ⟨ts, hts, hx⟩
    obtain ⟨t, hp, ht⟩ := hx ⟨ts, base + Text.byteLength source.toList⟩ rfl
    exact ⟨ts, t, hts, hp, by rw [t.peek_lexeme, ht]; rfl⟩

/-- The tokens of an expression open and close the same braces. -/
theorem Spells.closes {mode : Mode} {ls : List Lexeme} {x : Expr} (h : Spells mode ls x) :
    Closes 0 ls := by
  let s : TokenStream := ⟨ls.map fun l => ⟨l, 0⟩, 0⟩
  have hs : s.lexemes = ls := by simp [s, TokenStream.lexemes, Function.comp_def]
  obtain ⟨t, hp, ht⟩ := h s hs
  obtain ⟨⟨used, hu, hc⟩, -⟩ := Parse.balances_expr mode.unbraced_grammar _ _ _ _ rfl hp
  rw [hs, ht, List.append_nil] at hu
  exact hu ▸ hc

end TemplateEngine
