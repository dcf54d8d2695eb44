import Mathlib.Data.List.Forall2
import TemplateEngine.Proofs.Expr.Balance

/-!
# Offsets in readers

A reader looks at the offsets of tokens only to say where it fails.  So on two rows of the same
tokens at offsets that go together it gives the same result, or the same fault at offsets that go
together (`Parse.Uniform`).  `pure`, `bind` and the readers of single tokens have this property, and
every function of the reader of expressions has it by induction on the bound on nesting
(`Parse.uniform`).  None of them finds a string without an end; that is left to the tokens.

Which offsets go together is open: the same places, places that are moved by a number of bytes, or
places in a given text.
-/

namespace TemplateEngine

/-! ### Results -/

/-- Two results that go together: values, or errors. -/
inductive Agree {α β : Type} (E : Error → Error → Prop) (Q : α → β → Prop) :
    Except Error α → Except Error β → Prop where
  | ok {a : α} {b : β} (h : Q a b) : Agree E Q (.ok a) (.ok b)
  | error {e e' : Error} (h : E e e') : Agree E Q (.error e) (.error e')

section
variable {α α' β β' : Type} {E : Error → Error → Prop} {Q : α → α' → Prop} {P : β → β' → Prop}
  {x : Except Error α} {x' : Except Error α'}

theorem Agree.bind {f : α → Except Error β} {f' : α' → Except Error β'} (h : Agree E Q x x')
    (hf : ∀ a a', Q a a' → Agree E P (f a) (f' a')) : Agree E P (x >>= f) (x' >>= f') := by
  cases h with
  | ok h => exact hf _ _ h
  | error h => exact .error h

theorem Agree.map {f : α → β} {f' : α' → β'} (h : Agree E Q x x')
    (hf : ∀ a a', Q a a' → P (f a) (f' a')) : Agree E P (x.map f) (x'.map f') := by
  cases h with
  | ok h => exact .ok (hf _ _ h)
  | error h => exact .error h

theorem Agree.ite {c c' : Prop} [Decidable c] [Decidable c'] (hc : c ↔ c')
    {y : Except Error α} {y' : Except Error α'} (hx : Agree E Q x x') (hy : Agree E Q y y') :
    Agree E Q (if c then x else y) (if c' then x' else y') := by
  by_cases h : c
  · rwa [if_pos h, if_pos (hc.mp h)]
  · rwa [if_neg h, if_neg (mt hc.mpr h)]

theorem Agree.foldlM {f : α → β → Except Error α} {f' : α' → β' → Except Error α'} {g : β → β'}
    (h : ∀ a a', Q a a' → ∀ b, Agree E Q (f a b) (f' a' (g b))) {a : α} {a' : α'} (ha : Q a a')
    (xs : List β) : Agree E Q (xs.foldlM f a) ((xs.map g).foldlM f' a') := by
  induction xs generalizing a a' with
  | nil => exact .ok ha
  | cons b xs ih =>
    rw [List.map_cons, List.foldlM_cons, List.foldlM_cons]
    exact (h a a' ha b).bind fun _ _ h => ih h

end

/-! ### Tokens -/

variable {E : Error → Error → Prop} {R : Nat → Nat → Prop}

/-- The same token at offsets that go together. -/
structure Token.Alike (R : Nat → Nat → Prop) (t t' : Token) : Prop where
  lexeme : t.lexeme = t'.lexeme
  offset : R t.offset t'.offset

/-- The same tokens at offsets that go together. -/
structure TokenStream.Alike (R : Nat → Nat → Prop) (s s' : TokenStream) : Prop where
  rest : List.Forall₂ (Token.Alike R) s.rest s'.rest
  stop : R s.stop s'.stop

namespace TokenStream.Alike

variable {s s' : TokenStream}

theorem peek (h : s.Alike R s') : Token.Alike R s.peek s'.peek := by
  obtain ⟨rest, stop⟩ := s
  obtain ⟨rest', stop'⟩ := s'
  cases h.rest with
  | nil => exact ⟨rfl, h.stop⟩
  | cons ht _ => exact ht

theorem drop (h : s.Alike R s') (n : Nat) :
    TokenStream.Alike R { s with rest := s.rest.drop n } { s' with rest := s'.rest.drop n } :=
  ⟨List.forall₂_drop n h.rest, h.stop⟩

theorem tail (h : s.Alike R s') : s.tail.Alike R s'.tail := by
  simpa only [TokenStream.tail, List.drop_one] using h.drop 1

theorem lexemes (h : s.Alike R s') : s.lexemes = s'.lexemes := by
  have hmap : List.Forall₂ (· = ·) (s.rest.map Token.lexeme) (s'.rest.map Token.lexeme) :=
    List.forall₂_map_left_iff.mpr
      (List.forall₂_map_right_iff.mpr (h.rest.imp fun _ _ ht => ht.lexeme))
  exact List.forall₂_eq_eq_eq ▸ hmap

theorem startsWith (h : s.Alike R s') (words : List Word) :
    s.startsWith words = s'.startsWith words := by
  rw [TokenStream.startsWith, TokenStream.startsWith]
  exact congrArg _ h.lexemes

theorem depth (h : s.Alike R s') (g : Grammar) : s.depth g = s'.depth g := by
  rw [TokenStream.depth, TokenStream.depth, h.rest.length_eq]

end TokenStream.Alike

/-- A fault is the same at offsets that go together.  A string without an end is no fault of a
reader. -/
def Places (E : Error → Error → Prop) (R : Nat → Nat → Prop) : Prop :=
  ∀ f o o', f ≠ .unterminatedString → R o o' → E (.parse f o) (.parse f o')

namespace Parse

variable {α β : Type}

/-- On the same tokens at offsets that go together, the readers give the same result and leave the
same tokens, or fail with errors that go together. -/
def Uniform (E : Error → Error → Prop) (R : Nat → Nat → Prop) (p p' : Parse α) : Prop :=
  ∀ s s', s.Alike R s' → Agree E (fun x x' => x.1 = x'.1 ∧ x.2.Alike R x'.2) (p s) (p' s')

theorem uniform_pure (a : α) : Uniform E R (pure a) (pure a) := fun _ _ h => .ok ⟨rfl, h⟩

section
variable {p p' q q' : Parse α} {f f' : α → Parse β}

theorem Uniform.bind (hp : Uniform E R p p') (hf : ∀ a, Uniform E R (f a) (f' a)) :
    Uniform E R (p >>= f) (p' >>= f') := by
  intro s s' h
  refine (hp s s' h).bind fun x x' hx => ?_
  obtain ⟨a, t⟩ := x
  obtain ⟨a', t'⟩ := x'
  obtain ⟨rfl, ht⟩ := hx
  exact hf a t t' ht

theorem Uniform.map (hp : Uniform E R p p') (g : α → β) : Uniform E R (g <$> p) (g <$> p') := by
  rw [map_eq_pure_bind, map_eq_pure_bind]
  exact hp.bind fun a => uniform_pure (g a)

theorem Uniform.ite {c : Prop} [Decidable c] (hp : Uniform E R p p') (hq : Uniform E R q q') :
    Uniform E R (if c then p else q) (if c then p' else q') := by
  split
  · exact hp
  · exact hq

theorem uniform_peek {f f' : Token → Parse β}
    (h : ∀ l o o', R o o' → Uniform E R (f ⟨l, o⟩) (f' ⟨l, o'⟩)) :
    Uniform E R (peek >>= f) (peek >>= f') := by
  intro s s' hs
  have hpeek : s'.peek = ⟨s.peek.lexeme, s'.peek.offset⟩ := by rw [hs.peek.lexeme]
  change Agree E _ (f s.peek s) (f' s'.peek s')
  rw [hpeek]
  exact h _ _ _ hs.peek.offset s s' hs

theorem uniform_tail (hp : Uniform E R p p') :
    Uniform E R (modify TokenStream.tail >>= fun _ => p)
      (modify TokenStream.tail >>= fun _ => p') :=
  fun s s' h => hp s.tail s'.tail h.tail

theorem uniform_advance {f f' : Token → Parse β}
    (h : ∀ l o o', R o o' → Uniform E R (f ⟨l, o⟩) (f' ⟨l, o'⟩)) :
    Uniform E R (advance >>= f) (advance >>= f') := by
  rw [advance_bind, advance_bind]
  exact uniform_peek fun l o o' ho => uniform_tail (h l o o' ho)

theorem uniform_check (w : Word) : Uniform E R (check w) (check w) :=
  uniform_peek fun _ _ _ _ => uniform_pure _

/-- A word that is consumed if it comes next and the grammar has it. -/
theorem Uniform.check_tail {w : Word} {b : Bool} (hp : Uniform E R p p') (hq : Uniform E R q q') :
    Uniform E R
      (check w >>= fun c => if b && c then modify TokenStream.tail >>= fun _ => p else q)
      (check w >>= fun c => if b && c then modify TokenStream.tail >>= fun _ => p' else q') :=
  (uniform_check w).bind fun _ => .ite (uniform_tail hp) hq

theorem uniform_eat (w : Word) : Uniform E R (eat w) (eat w) :=
  (uniform_check w).bind fun _ => .ite (uniform_tail (uniform_pure true)) (uniform_pure false)

/-- A word that is consumed if it comes next. -/
theorem Uniform.eat {w : Word} {f f' : Bool → Parse β} (ht : Uniform E R (f true) (f' true))
    (hf : Uniform E R (f false) (f' false)) :
    Uniform E R (Parse.eat w >>= f) (Parse.eat w >>= f') :=
  (uniform_eat w).bind fun b => by
    cases b with
    | true => exact ht
    | false => exact hf

end

/-! ### Readers of single tokens -/

theorem uniform_fault (hE : Places E R) {f : ParseFault} (hf : f ≠ .unterminatedString) {o o' : Nat}
    (ho : R o o') : Uniform E R (fault f o : Parse α) (fault f o') :=
  fun _ _ _ => .error (hE f o o' hf ho)

theorem uniform_tooDeep (hE : Places E R) :
    Uniform E R (do fault .tooDeep (← peek).offset : Parse α)
      (do fault .tooDeep (← peek).offset) :=
  uniform_peek fun _ _ _ ho => uniform_fault hE (by simp) ho

theorem uniform_expected (hE : Places E R) (what : String) :
    Uniform E R (expected what : Parse α) (expected what) :=
  uniform_peek fun _ _ _ ho => uniform_fault hE (by simp) ho

theorem uniform_expect (hE : Places E R) (w : Word) : Uniform E R (expect w) (expect w) :=
  Uniform.eat (uniform_pure ()) (uniform_expected hE _)

theorem uniform_finish (hE : Places E R) : Uniform E R finish finish :=
  uniform_peek fun _ _ _ ho => .ite (uniform_pure ()) (uniform_fault hE (by simp) ho)

theorem uniform_identifier (hE : Places E R) (g : Grammar) :
    Uniform E R (identifier g) (identifier g) := by
  refine uniform_peek fun l o o' _ => ?_
  dsimp only
  split
  · exact .ite (uniform_expected hE _) (uniform_tail (uniform_pure _))
  · exact uniform_expected hE _

theorem uniform_filterName (hE : Places E R) : Uniform E R filterName filterName := by
  refine uniform_peek fun l o o' _ => ?_
  dsimp only
  split
  · exact uniform_tail (uniform_pure _)
  · exact uniform_expected hE _

theorem uniform_attributeName (hE : Places E R) : Uniform E R attributeName attributeName := by
  refine uniform_advance fun l o o' ho => ?_
  dsimp only
  split
  · exact uniform_pure _
  · exact uniform_pure _
  · exact uniform_fault hE (by simp) ho

theorem uniform_negativeNumber (hE : Places E R) : Uniform E R negativeNumber negativeNumber := by
  refine uniform_advance fun l o o' ho => ?_
  dsimp only
  split
  · exact uniform_pure _
  · exact uniform_pure _
  · exact uniform_fault hE (by simp) ho

theorem uniform_nameExpr (hE : Places E R) (g : Grammar) (name : String) {o o' : Nat}
    (ho : R o o') : Uniform E R (nameExpr g name o) (nameExpr g name o') := by
  unfold nameExpr
  split
  · exact uniform_pure _
  · exact .ite (uniform_fault hE (by simp) ho) (uniform_pure _)

theorem uniform_sign? (operators : List (Symbol × UnaryOp)) :
    Uniform E R (sign? operators) (sign? operators) := by
  induction operators with
  | nil => exact uniform_pure none
  | cons o more ih => exact Uniform.eat (uniform_pure _) ih

theorem uniform_operator? (operators : List (List Word × BinaryOp)) :
    Uniform E R (operator? operators) (operator? operators) := by
  induction operators with
  | nil => exact uniform_pure none
  | cons o more ih =>
    obtain ⟨words, op⟩ := o
    have run : ∀ s, operator? ((words, op) :: more) s =
        if s.startsWith words then .ok (some op, { s with rest := s.rest.drop words.length })
        else operator? more s := by
      intro s
      rw [operator?]
      change (if s.startsWith words then _ else _ : Parse (Option BinaryOp)) s = _
      split <;> rfl
    intro s s' h
    rw [run, run, h.startsWith words]
    split
    · exact .ok ⟨rfl, h.drop _⟩
    · exact ih s s' h

/-! ### Expressions -/

/-- All functions of the reader of expressions are uniform with the bound `n`. -/
structure IsUniform (E : Error → Error → Prop) (R : Nat → Nat → Prop) (g : Grammar) (n : Nat) :
    Prop where
  expression : Uniform E R (expression g n) (expression g n)
  filters (value : Expr) : Uniform E R (filters g n value) (filters g n value)
  arguments : Uniform E R (arguments g n) (arguments g n)
  choices : Uniform E R (choices g n) (choices g n)
  choice : Uniform E R (choice g n) (choice g n)
  level (i : Nat) : Uniform E R (level g n i) (level g n i)
  chain (i : Nat) (operators : List (List Word × BinaryOp)) (left : Expr) :
    Uniform E R (chain g n i operators left) (chain g n i operators left)
  operand : Uniform E R (operand g n) (operand g n)
  members (base : Expr) : Uniform E R (members g n base) (members g n base)
  subscript (base : Expr) : Uniform E R (subscript g n base) (subscript g n base)
  sequence (close : Symbol) : Uniform E R (sequence g n close) (sequence g n close)
  primary : Uniform E R (primary g n) (primary g n)
  group : Uniform E R (group g n) (group g n)
  braces : Uniform E R (braces g n) (braces g n)
  entries : Uniform E R (entries g n) (entries g n)

theorem isUniform_zero (hE : Places E R) (g : Grammar) : IsUniform E R g 0 where
  expression := uniform_tooDeep hE
  filters _ := uniform_tooDeep hE
  arguments := uniform_tooDeep hE
  choices := uniform_tooDeep hE
  choice := uniform_tooDeep hE
  level _ := uniform_tooDeep hE
  chain _ _ _ := uniform_tooDeep hE
  operand := uniform_tooDeep hE
  members _ := uniform_tooDeep hE
  subscript _ := uniform_tooDeep hE
  sequence _ := uniform_tooDeep hE
  primary := uniform_tooDeep hE
  group := uniform_tooDeep hE
  braces := uniform_tooDeep hE
  entries := uniform_tooDeep hE

variable {g : Grammar} {n : Nat}

theorem IsUniform.choice_succ (hE : Places E R) (ih : IsUniform E R g n) :
    Uniform E R (Parse.choice g (n + 1)) (Parse.choice g (n + 1)) := by
  rw [Parse.choice]
  refine (ih.level 0).bind fun yes => Uniform.check_tail ?_ (uniform_pure _)
  refine (ih.level 0).bind fun cond => (uniform_expect hE _).bind fun _ => ?_
  exact ih.choice.bind fun no => uniform_pure _

theorem IsUniform.level_succ (ih : IsUniform E R g n) (i : Nat) :
    Uniform E R (Parse.level g (n + 1) i) (Parse.level g (n + 1) i) := by
  rw [Parse.level]
  split
  · exact ih.operand
  · exact (ih.level _).bind fun left => ih.chain i _ left
  · exact Uniform.eat ((ih.level i).bind fun e => uniform_pure _) (ih.level _)
  · refine (uniform_sign? _).bind fun sign => ?_
    cases sign with
    | some op => exact (ih.level i).bind fun e => uniform_pure _
    | none => exact ih.level _
  · refine ih.operand.bind fun base => Uniform.eat ?_ (uniform_pure _)
    exact (ih.level _).bind fun e => uniform_pure _

theorem IsUniform.chain_succ (ih : IsUniform E R g n) (i : Nat)
    (operators : List (List Word × BinaryOp)) (left : Expr) :
    Uniform E R (Parse.chain g (n + 1) i operators left)
      (Parse.chain g (n + 1) i operators left) := by
  rw [Parse.chain]
  refine (uniform_operator? _).bind fun op => ?_
  cases op with
  | some op => exact (ih.level _).bind fun right => ih.chain i _ _
  | none => exact uniform_pure _

theorem IsUniform.members_succ (hE : Places E R) (ih : IsUniform E R g n) (base : Expr) :
    Uniform E R (Parse.members g (n + 1) base) (Parse.members g (n + 1) base) := by
  rw [Parse.members]
  refine Uniform.eat ?_ (Uniform.eat ?_ ?_)
  · exact (uniform_attributeName hE).bind fun name => ih.members _
  · exact (ih.subscript base).bind fun e => (uniform_expect hE _).bind fun _ => ih.members _
  · exact Uniform.check_tail ((ih.sequence _).bind fun args => ih.members _) (uniform_pure _)

theorem IsUniform.subscript_succ (hE : Places E R) (ih : IsUniform E R g n) (base : Expr) :
    Uniform E R (Parse.subscript g (n + 1) base) (Parse.subscript g (n + 1) base) := by
  rw [Parse.subscript]
  -- a bound is read or left out, and the reader goes on with it
  have bound : ∀ (b : Bool) (next : Option Expr → Parse Expr),
      (∀ e, Uniform E R (next e) (next e)) →
        Uniform E R (if b then pure none >>= next else some <$> Parse.expression g n >>= next)
          (if b then pure none >>= next else some <$> Parse.expression g n >>= next) :=
    fun b next h => .ite ((uniform_pure none).bind h) ((ih.expression.map some).bind h)
  refine (uniform_check _).bind fun c => bound c _ fun start => ?_
  refine Uniform.check_tail ?_ ?_
  · refine (uniform_check _).bind fun c₁ => (uniform_check _).bind fun c₂ =>
      bound (c₁ || c₂) _ fun stop => ?_
    refine Uniform.eat ?_ ((uniform_pure none).bind fun step => uniform_pure _)
    exact (uniform_check _).bind fun c => bound c _ fun step => uniform_pure _
  · cases start with
    | some key => exact uniform_pure _
    | none => exact uniform_expected hE _

theorem IsUniform.sequence_succ (hE : Places E R) (ih : IsUniform E R g n) (close : Symbol) :
    Uniform E R (Parse.sequence g (n + 1) close) (Parse.sequence g (n + 1) close) := by
  rw [Parse.sequence]
  refine Uniform.eat (uniform_pure _) (ih.expression.bind fun first => Uniform.eat ?_ ?_)
  · exact (ih.sequence close).bind fun more => uniform_pure _
  · exact (uniform_expect hE _).bind fun _ => uniform_pure _

theorem IsUniform.primary_succ (hE : Places E R) (ih : IsUniform E R g n) :
    Uniform E R (Parse.primary g (n + 1)) (Parse.primary g (n + 1)) := by
  change Uniform E R (advance >>= _) (advance >>= _)
  refine uniform_advance fun l o o' ho => ?_
  cases l with
  | int i => exact uniform_pure _
  | float x => exact uniform_pure _
  | str s => exact uniform_pure _
  | stop => exact uniform_fault hE (by simp) ho
  | word w =>
    cases w with
    | name s => exact uniform_nameExpr hE g _ ho
    | symbol s =>
      cases s with
      | minus => exact .ite (uniform_negativeNumber hE) (uniform_fault hE (by simp) ho)
      | lparen => exact ih.group
      | lbracket => exact (ih.sequence _).bind fun items => uniform_pure _
      | lbrace => exact .ite ih.braces (uniform_fault hE (by simp) ho)
      | _ => exact uniform_fault hE (by simp) ho

theorem IsUniform.group_succ (hE : Places E R) (ih : IsUniform E R g n) :
    Uniform E R (Parse.group g (n + 1)) (Parse.group g (n + 1)) := by
  rw [Parse.group]
  refine Uniform.check_tail (uniform_pure _) (ih.expression.bind fun first => ?_)
  refine Uniform.check_tail ?_ (Uniform.check_tail ?_ ?_)
  · exact ih.expression.bind fun last => (uniform_expect hE _).bind fun _ => uniform_pure _
  · exact (ih.sequence _).bind fun items => uniform_pure _
  · exact (uniform_expect hE _).bind fun _ => uniform_pure _

theorem IsUniform.braces_succ (hE : Places E R) (ih : IsUniform E R g n) :
    Uniform E R (Parse.braces g (n + 1)) (Parse.braces g (n + 1)) := by
  rw [Parse.braces]
  refine Uniform.eat (uniform_pure _) (ih.expression.bind fun first => ?_)
  refine Uniform.eat ?_ (Uniform.eat ?_ ?_)
  · exact ih.expression.bind fun value => ih.entries.bind fun es => uniform_pure _
  · exact (ih.sequence _).bind fun more => uniform_pure _
  · exact (uniform_expect hE _).bind fun _ => uniform_pure _

theorem IsUniform.entries_succ (hE : Places E R) (ih : IsUniform E R g n) :
    Uniform E R (Parse.entries g (n + 1)) (Parse.entries g (n + 1)) := by
  rw [Parse.entries]
  refine Uniform.eat (Uniform.eat (uniform_pure _) ?_) ?_
  · refine ih.expression.bind fun key => (uniform_expect hE _).bind fun _ => ?_
    exact ih.expression.bind fun value => ih.entries.bind fun es => uniform_pure _
  · exact (uniform_expect hE _).bind fun _ => uniform_pure _

/-- The reader of expressions is uniform. -/
theorem isUniform (hE : Places E R) (g : Grammar) (n : Nat) : IsUniform E R g n := by
  induction n with
  | zero => exact isUniform_zero hE g
  | succ n ih =>
    exact {
      expression := by
        rw [Parse.expression]
        exact ih.choice.bind fun value => ih.filters value
      filters := fun value => by
        rw [Parse.filters]
        refine Uniform.eat ?_ (uniform_pure _)
        exact (uniform_filterName hE).bind fun name => ih.arguments.bind fun args => ih.filters _
      arguments := by
        rw [Parse.arguments]
        exact Uniform.eat ih.choices (Uniform.eat (ih.sequence _) (uniform_pure _))
      choices := by
        rw [Parse.choices]
        refine ih.choice.bind fun first => Uniform.eat ?_ (uniform_pure _)
        exact ih.choices.bind fun more => uniform_pure _
      choice := ih.choice_succ hE
      level := ih.level_succ
      chain := ih.chain_succ
      operand := by
        rw [Parse.operand]
        exact ih.primary.bind fun base => ih.members base
      members := ih.members_succ hE
      subscript := ih.subscript_succ hE
      sequence := ih.sequence_succ hE
      primary := ih.primary_succ hE
      group := ih.group_succ hE
      braces := ih.braces_succ hE
      entries := ih.entries_succ hE }

/-- A reader with its bound on nesting, which depends on the number of tokens only. -/
theorem uniform_depth {p : Nat → Parse α} (h : ∀ n, Uniform E R (p n) (p n)) (g : Grammar) :
    Uniform E R (do p ((← get).depth g)) (do p ((← get).depth g)) := by
  intro s s' hs
  change Agree E _ (p (s.depth g) s) (p (s'.depth g) s')
  rw [hs.depth g]
  exact h _ s s' hs

theorem uniform_expr (hE : Places E R) (g : Grammar) : Uniform E R (expr g) (expr g) :=
  uniform_depth (fun n => (isUniform hE g n).expression) g

theorem uniform_plainExpr (hE : Places E R) (g : Grammar) :
    Uniform E R (plainExpr g) (plainExpr g) :=
  uniform_depth (fun n => (isUniform hE g n).choice) g

end Parse

/-! ### Texts -/

/-- The text has the same tokens at both offsets, up to offsets that go together, or the same fault;
where it stops goes together as well. -/
structure SameTokens (E : Error → Error → Prop) (R : Nat → Nat → Prop) (cs : List Char)
    (base base' : Nat) : Prop where
  tokens : Agree E (List.Forall₂ (Token.Alike R)) (TokenStream.tokens base cs)
    (TokenStream.tokens base' cs)
  stop : R (base + Text.byteLength cs) (base' + Text.byteLength cs)

/-- All places in the text go together. -/
def Carried (R : Nat → Nat → Prop) (cs : List Char) (offset offset' : Nat) : Prop :=
  ∀ before after, cs = before ++ after →
    R (offset + Text.byteLength before) (offset' + Text.byteLength before)

theorem Carried.start {cs : List Char} {offset offset' : Nat} (h : Carried R cs offset offset') :
    R offset offset' := h [] cs rfl

theorem Carried.append (before : List Char) {cs : List Char} {offset offset' : Nat}
    (h : Carried R (before ++ cs) offset offset') :
    Carried R cs (offset + Text.byteLength before) (offset' + Text.byteLength before) := by
  rintro b a rfl
  rw [Nat.add_assoc, Nat.add_assoc, ← Text.byteLength_append]
  exact h (before ++ b) a (List.append_assoc ..).symm

theorem Carried.part {lead cs trail : List Char} {offset offset' : Nat}
    (h : Carried R (lead ++ cs ++ trail) offset offset') :
    Carried R cs (offset + Text.byteLength lead) (offset' + Text.byteLength lead) := by
  rintro before after rfl
  rw [Nat.add_assoc, Nat.add_assoc, ← Text.byteLength_append]
  exact h (lead ++ before) (after ++ trail) (by simp only [List.append_assoc])

/-- A token is the same at both offsets, or the same fault. -/
theorem Lexeme.agree_read (hE : ∀ f o o', R o o' → E (.parse f o) (.parse f o')) {o o' : Nat}
    (ho : R o o') (c : Char) (cs : List Char) : Agree E Eq (read o c cs) (read o' c cs) := by
  have hnumber : Agree E Eq (readNumber o (c :: cs)) (readNumber o' (c :: cs)) := by
    unfold readNumber
    dsimp only
    split
    · split
      · exact .ok rfl
      · exact .error (hE _ _ _ ho)
    · exact .ok rfl
  unfold read
  split
  · exact hnumber.bind fun x x' hx => hx ▸ .ok rfl
  · split
    · split
      · exact .ok rfl
      · exact .error (hE _ _ _ ho)
    · split
      · exact .ok rfl
      · split
        · exact .ok rfl
        · exact .error (hE _ _ _ ho)

/-- A text has the same tokens at places that go together. -/
theorem TokenStream.agree_tokens (hE : ∀ f o o', R o o' → E (.parse f o) (.parse f o'))
    {cs : List Char} {offset offset' : Nat} (h : Carried R cs offset offset') :
    Agree E (List.Forall₂ (Token.Alike R)) (tokens offset cs) (tokens offset' cs) := by
  induction cs using text_induction generalizing offset offset' with
  | nil =>
    rw [tokens_nil, tokens_nil]
    exact .ok .nil
  | blank c cs hc ih =>
    rw [tokens_blank hc, tokens_blank hc]
    simpa using ih (Carried.append [c] h)
  | token c cs hc ih =>
    rw [tokens_token hc, tokens_token hc]
    refine (Lexeme.agree_read hE h.start c cs).bind ?_
    rintro ⟨l, n⟩ _ rfl
    refine (ih n (Carried.append _ ?_)).map fun ts ts' hts => .cons ⟨rfl, h.start⟩ hts
    rwa [List.cons_append, List.take_append_drop]

theorem sameTokens_of_carried (hE : ∀ f o o', R o o' → E (.parse f o) (.parse f o'))
    {cs : List Char} {base base' : Nat} (h : Carried R cs base base') :
    SameTokens E R cs base base' :=
  ⟨TokenStream.agree_tokens hE h, h cs [] (List.append_nil cs).symm⟩

/-- A whole text is read alike where its tokens are alike. -/
theorem Parse.Uniform.whole {α : Type} {p : Parse α} (hp : Uniform E R p p) (hE : Places E R)
    {cs : List Char} {base base' : Nat} (h : SameTokens E R cs base base') :
    Agree E Eq (p.whole (String.ofList cs) base) (p.whole (String.ofList cs) base') := by
  have hall : Uniform E R (do let a ← p; finish; return a) (do let a ← p; finish; return a) :=
    hp.bind fun a => (uniform_finish hE).bind fun _ => uniform_pure a
  simp only [Parse.whole, TokenStream.ofString, String.toList_ofList]
  refine Agree.bind (Q := TokenStream.Alike R) ?_ fun s s' hs => ?_
  · exact h.tokens.bind fun ts ts' hts => .ok ⟨hts, h.stop⟩
  · exact (hall s s' hs).bind fun x x' hx => .ok hx.1

theorem Expr.agree_parse (hE : Places E R) (mode : Mode) {cs : List Char} {base base' : Nat}
    (h : SameTokens E R cs base base') :
    Agree E Eq (Expr.parse mode (String.ofList cs) base)
      (Expr.parse mode (String.ofList cs) base') :=
  (Parse.uniform_expr hE mode.grammar).whole hE h

end TemplateEngine
