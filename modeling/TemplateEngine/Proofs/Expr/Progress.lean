import TemplateEngine.Proofs.Expr.Consumes

/-!
# The reader of expressions makes progress

Two bounds on nesting that are large enough give a reader the same result, and that result is not
the failure of a bound (`Parse.Settles`).  Between two tokens that are consumed, at most one
function per level of the grammar and six more call one another, so what is large enough depends on
the number of tokens that are left (`Parse.settled`).  A reader of an expression that succeeds has
consumed a token at least, so at the end it fails.
-/

namespace TemplateEngine

/-- Every operator between two operands is spelled with a word at least. -/
def Level.Spelled : Level → Prop
  | .between operators => ∀ o ∈ operators, o.1 ≠ []
  | .negation | .signs _ | .power => True

/-- Every operator between two operands is spelled with a word at least. -/
def Grammar.Spelled (g : Grammar) : Prop := ∀ level ∈ g.levels, level.Spelled

instance : (level : Level) → Decidable level.Spelled
  | .between operators => inferInstanceAs (Decidable (∀ o ∈ operators, o.1 ≠ []))
  | .negation | .signs _ | .power => inferInstanceAs (Decidable True)

instance (g : Grammar) : Decidable g.Spelled :=
  inferInstanceAs (Decidable (∀ level ∈ g.levels, level.Spelled))

theorem Mode.spelled_grammar (mode : Mode) : mode.grammar.Spelled := by cases mode <;> decide

namespace Parse

variable {α β : Type}

/-! ### Moving over tokens -/

/-- The second stream is the first one without the tokens at its start, `k` of them or more. -/
structure Moves (k : Nat) (s t : TokenStream) : Prop where
  stop : t.stop = s.stop
  used : ∃ used, k ≤ used.length ∧ s.rest = used ++ t.rest

section
variable {s t u : TokenStream} {j k : Nat}

theorem moves_refl (s : TokenStream) : Moves 0 s s := ⟨rfl, [], Nat.le_refl 0, rfl⟩

theorem Moves.trans (h : Moves j s t) (h' : Moves k t u) : Moves (j + k) s u := by
  obtain ⟨hs, used, hj, he⟩ := h
  obtain ⟨ht, used', hk, he'⟩ := h'
  refine ⟨ht.trans hs, used ++ used', ?_, by rw [he, he', List.append_assoc]⟩
  rw [List.length_append]
  exact Nat.add_le_add hj hk

theorem Moves.mono (h : Moves k s t) (hj : j ≤ k) : Moves j s t := by
  obtain ⟨hs, used, hk, he⟩ := h
  exact ⟨hs, used, hj.trans hk, he⟩

theorem Moves.length_add_le (h : Moves k s t) : t.rest.length + k ≤ s.rest.length := by
  obtain ⟨-, used, hk, he⟩ := h
  rw [he, List.length_append]
  omega

theorem moves_tail (h : s.peek.lexeme ≠ .stop) : Moves 1 s s.tail := by
  obtain ⟨_ | ⟨token, rest⟩, stop⟩ := s
  · exact absurd rfl h
  · exact ⟨rfl, [token], Nat.le_refl 1, rfl⟩

theorem moves_zero_tail (s : TokenStream) : Moves 0 s s.tail := by
  obtain ⟨_ | ⟨token, rest⟩, stop⟩ := s
  · exact moves_refl _
  · exact ⟨rfl, [token], Nat.zero_le 1, rfl⟩

theorem moves_drop {n : Nat} (h : n ≤ s.rest.length) :
    Moves n s { s with rest := s.rest.drop n } :=
  ⟨rfl, s.rest.take n, by rw [List.length_take, Nat.min_eq_left h],
    (List.take_append_drop n s.rest).symm⟩

end

/-! ### Readers with two bounds -/

/-- On this stream the two readers have the same result.  It is not the failure of a bound on
nesting, and behind it `k` tokens or more have been consumed. -/
structure SettlesAt (k : Nat) (p p' : Parse α) (s : TokenStream) : Prop where
  agrees : p s = p' s
  shallow : ∀ offset, p s ≠ .error (.parse .tooDeep offset)
  moves : ∀ a t, p s = .ok (a, t) → Moves k s t

/-- The same on every stream with `r` tokens or fewer. -/
def Settles (r k : Nat) (p p' : Parse α) : Prop :=
  ∀ s : TokenStream, s.rest.length ≤ r → SettlesAt k p p' s

/-- What comes behind `j` tokens. -/
theorem SettlesAt.behind {j k : Nat} {s t : TokenStream} {p p' q q' : Parse α} (hm : Moves j s t)
    (hq : q s = p t) (hq' : q' s = p' t) (h : SettlesAt (k - j) p p' t) : SettlesAt k q q' s where
  agrees := by rw [hq, hq', h.agrees]
  shallow := by rw [hq]; exact h.shallow
  moves a u e := (hm.trans (h.moves a u (hq ▸ e))).mono (by omega)

theorem settlesAt_error {k : Nat} {s : TokenStream} {p p' : Parse α} {e : Error}
    (h : p s = .error e) (h' : p' s = .error e) (he : ∀ offset, e ≠ .parse .tooDeep offset) :
    SettlesAt k p p' s where
  agrees := h.trans h'.symm
  shallow offset hd := he offset (Except.error.inj (h.symm.trans hd))
  moves a t hok := by rw [h] at hok; cases hok

section
variable {r j k : Nat} {p p' : Parse α} {f f' : α → Parse β}

theorem Settles.mono (h : Settles r k p p') (hj : j ≤ k) : Settles r j p p' :=
  fun s hs => ⟨(h s hs).agrees, (h s hs).shallow, fun a t e => ((h s hs).moves a t e).mono hj⟩

theorem settles_pure (a : α) : Settles r 0 (pure a : Parse α) (pure a) :=
  fun s _ => ⟨rfl, nofun, fun b t e => by cases e; exact moves_refl s⟩

theorem settles_fault {f : ParseFault} (h : f ≠ .tooDeep) (offset : Nat) :
    Settles r k (fault f offset : Parse α) (fault f offset) :=
  fun _ _ => settlesAt_error rfl rfl fun _ e => h (Error.parse.inj e).1

theorem settles_expected (what : String) : Settles r k (expected what : Parse α) (expected what) :=
  fun _ _ => settlesAt_error rfl rfl nofun

/-- A reader that consumes `j` tokens or more, and a second one behind it. -/
theorem Settles.bind (hp : Settles r j p p')
    (hf : ∀ a x, x + j ≤ r → Settles x (k - j) (f a) (f' a)) :
    Settles r k (p >>= f) (p' >>= f') := by
  intro s hs
  have h := hp s hs
  have hrun : ∀ (q : Parse α) (g : α → Parse β),
      (q >>= g) s = (q s >>= fun x => g x.1 x.2) := fun _ _ => rfl
  cases hres : p s with
  | error e =>
    have hres' : p' s = .error e := h.agrees ▸ hres
    exact settlesAt_error (by rw [hrun, hres]; rfl) (by rw [hrun, hres']; rfl)
      fun offset he => h.shallow offset (he ▸ hres)
  | ok x =>
    obtain ⟨a, t⟩ := x
    have hres' : p' s = .ok (a, t) := h.agrees ▸ hres
    have hm := h.moves a t hres
    have hlength := hm.length_add_le
    exact .behind hm (by rw [hrun, hres]; rfl) (by rw [hrun, hres']; rfl)
      (hf a t.rest.length (by omega) t (Nat.le_refl _))

theorem Settles.map (hp : Settles r k p p') (g : α → β) : Settles r k (g <$> p) (g <$> p') := by
  rw [map_eq_pure_bind, map_eq_pure_bind]
  refine hp.bind fun a x _ => ?_
  rw [Nat.sub_self]
  exact settles_pure (g a)

/-- A token that is only looked at. -/
theorem settlesAt_peek {s : TokenStream} {f f' : Token → Parse β}
    (h : SettlesAt k (f s.peek) (f' s.peek) s) : SettlesAt k (peek >>= f) (peek >>= f') s :=
  ⟨h.agrees, h.shallow, h.moves⟩

theorem settles_check (w : Word) : Settles r 0 (check w) (check w) :=
  fun s hs => settlesAt_peek (settles_pure _ s hs)

/-- A token that is consumed. -/
theorem settlesAt_tail {p p' : Parse β} {s : TokenStream} (hs : s.rest.length ≤ r)
    (hne : s.peek.lexeme ≠ .stop) (hp : ∀ x, x + 1 ≤ r → Settles x (k - 1) p p') :
    SettlesAt k (modify TokenStream.tail >>= fun _ => p) (modify TokenStream.tail >>= fun _ => p')
      s := by
  have hm := moves_tail hne
  have hlength := hm.length_add_le
  exact .behind hm rfl rfl (hp s.tail.rest.length (by omega) s.tail (Nat.le_refl _))

/-- A word that is consumed if it comes next and the grammar has it. -/
theorem Settles.check_tail {w : Word} {b : Bool} {p p' q q' : Parse β}
    (hp : ∀ x, x + 1 ≤ r → Settles x (k - 1) p p') (hq : Settles r k q q') :
    Settles r k
      (check w >>= fun c => if b && c then modify TokenStream.tail >>= fun _ => p else q)
      (check w >>= fun c => if b && c then modify TokenStream.tail >>= fun _ => p' else q') := by
  simp only [check, bind_assoc, pure_bind]
  intro s hs
  refine settlesAt_peek ?_
  by_cases hw : (b && s.peek.lexeme == .word w) = true
  · have hne : s.peek.lexeme ≠ .stop := by
      rw [Bool.and_eq_true, beq_iff_eq] at hw
      simp [hw.2]
    rw [if_pos hw, if_pos hw]
    exact settlesAt_tail hs hne hp
  · rw [if_neg hw, if_neg hw]
    exact hq s hs

/-- A word that is consumed if it comes next. -/
theorem Settles.eat {w : Word} {f f' : Bool → Parse β}
    (ht : ∀ x, x + 1 ≤ r → Settles x (k - 1) (f true) (f' true))
    (hf : Settles r k (f false) (f' false)) :
    Settles r k (Parse.eat w >>= f) (Parse.eat w >>= f') := by
  have hcheck : ∀ f : Bool → Parse β, Parse.eat w >>= f = check w >>= fun c =>
      if true && c then modify TokenStream.tail >>= fun _ => f true else f false := by
    intro f
    simp only [eat_bind, check, bind_assoc, pure_bind, Bool.true_and]
  rw [hcheck, hcheck]
  exact .check_tail ht hf

theorem settles_expect (w : Word) : Settles r 1 (expect w) (expect w) :=
  Settles.eat (fun _ _ => settles_pure ()) (settles_expected _)

/-- A token that is consumed unless it is the end. -/
theorem settles_advance {f f' : Token → Parse β}
    (hstop : ∀ offset, Settles r k (f ⟨.stop, offset⟩) (f' ⟨.stop, offset⟩))
    (h : ∀ l offset x, x + 1 ≤ r → Settles x (k - 1) (f ⟨l, offset⟩) (f' ⟨l, offset⟩)) :
    Settles r k (advance >>= f) (advance >>= f') := by
  rw [advance_bind, advance_bind]
  intro s hs
  refine settlesAt_peek ?_
  by_cases hl : s.peek.lexeme = .stop
  · have hend : s.peek = ⟨.stop, s.peek.offset⟩ := by rw [← hl]
    have hlength := (moves_zero_tail s).length_add_le
    rw [hend]
    exact .behind (moves_zero_tail s) rfl rfl (hstop s.peek.offset s.tail (by omega))
  · exact settlesAt_tail hs hl fun x hx => h _ _ x hx

theorem settles_filterName : Settles r 1 filterName filterName := by
  intro s hs
  refine settlesAt_peek ?_
  split
  · next name hl =>
    exact settlesAt_tail hs (by simp [hl]) fun x _ => settles_pure name
  · exact settles_expected _ s hs

theorem settles_attributeName : Settles r 1 attributeName attributeName := by
  refine settles_advance (fun _ => settles_fault (by nofun) _) fun l offset x _ => ?_
  dsimp only
  split
  · exact settles_pure _
  · exact settles_pure _
  · exact settles_fault (by nofun) _

theorem settles_negativeNumber : Settles r 1 negativeNumber negativeNumber := by
  refine settles_advance (fun _ => settles_fault (by nofun) _) fun l offset x _ => ?_
  dsimp only
  split
  · exact settles_pure _
  · exact settles_pure _
  · exact settles_fault (by nofun) _

theorem settles_nameExpr (g : Grammar) (name : String) (offset : Nat) :
    Settles r 0 (nameExpr g name offset) (nameExpr g name offset) := by
  unfold nameExpr
  split
  · exact settles_pure _
  · split
    · exact settles_fault (by nofun) _
    · exact settles_pure _

/-- A sign that is consumed if one comes next. -/
theorem Settles.sign {operators : List (Symbol × UnaryOp)} {f f' : Option UnaryOp → Parse β}
    (hsome : ∀ op x, x + 1 ≤ r → Settles x (k - 1) (f (some op)) (f' (some op)))
    (hnone : Settles r k (f none) (f' none)) :
    Settles r k (sign? operators >>= f) (sign? operators >>= f') := by
  induction operators with
  | nil => exact hnone
  | cons o more ih =>
    obtain ⟨symbol, op⟩ := o
    simp only [sign?, bind_assoc]
    refine .eat (fun x hx => ?_) ?_
    · simpa using hsome op x hx
    · simpa using ih

/-- An operator that is consumed if one comes next; it is spelled with a word at least. -/
theorem Settles.operator {operators : List (List Word × BinaryOp)}
    {f f' : Option BinaryOp → Parse β} (hw : ∀ o ∈ operators, o.1 ≠ [])
    (hsome : ∀ op x, x + 1 ≤ r → Settles x (k - 1) (f (some op)) (f' (some op)))
    (hnone : Settles r k (f none) (f' none)) :
    Settles r k (operator? operators >>= f) (operator? operators >>= f') := by
  intro s hs
  have hrun : ∀ f : Option BinaryOp → Parse β, (operator? operators >>= f) s =
      (operator? operators s >>= fun x => f x.1 x.2) := fun _ => rfl
  simp only [operator?_eq] at hrun
  cases hfind : operators.find? fun o => spelledBy o.1 s.lexemes with
  | none =>
    simp only [hfind] at hrun
    exact .behind (moves_refl s) (hrun f) (hrun f') (hnone s hs)
  | some o =>
    simp only [hfind] at hrun
    have hfound : spelledBy o.1 s.lexemes = true := by simpa using List.find?_some hfind
    have hspelled : o.1.map Lexeme.word <+: s.lexemes := List.isPrefixOf_iff_prefix.mp hfound
    have hwords : 1 ≤ o.1.length :=
      List.length_pos_iff.mpr (hw o (List.mem_of_find?_eq_some hfind))
    have hrest : o.1.length ≤ s.rest.length := by
      simpa [TokenStream.lexemes] using hspelled.length_le
    have hm := (moves_drop hrest).mono hwords
    have hlength := hm.length_add_le
    exact .behind hm (hrun f) (hrun f') (hsome o.2 _ (by omega) _ (Nat.le_refl _))

end

/-! ### Readers whose bound is large enough -/

/-- Any two bounds from `c` on give the reader the same result in front of fewer than `r` tokens. -/
def SettlesFrom (c r k : Nat) (p : Nat → Parse α) : Prop :=
  ∀ n m x, c ≤ n → c ≤ m → x < r → Settles x k (p n) (p m)

theorem SettlesFrom.succ {c r k : Nat} {p : Nat → Parse α}
    (h : ∀ n m x, c ≤ n → c ≤ m → x < r → Settles x k (p (n + 1)) (p (m + 1))) :
    SettlesFrom (c + 1) r k p := by
  intro n m x hn hm hx
  obtain ⟨n, rfl⟩ : ∃ n', n = n' + 1 := ⟨n - 1, by omega⟩
  obtain ⟨m, rfl⟩ : ∃ m', m = m' + 1 := ⟨m - 1, by omega⟩
  exact h n m x (Nat.le_of_succ_le_succ hn) (Nat.le_of_succ_le_succ hm) hx

theorem SettlesFrom.mono {c c' r k : Nat} {p : Nat → Parse α} (h : SettlesFrom c r k p)
    (hc : c ≤ c') : SettlesFrom c' r k p :=
  fun n m x hn hm hx => h n m x (hc.trans hn) (hc.trans hm) hx

/-- With bounds from `c` on, all functions of the reader of expressions have one result in front of
fewer than `r` tokens; those that read an expression consume a token at least. -/
structure Settled (g : Grammar) (c r : Nat) : Prop where
  expression : SettlesFrom c r 1 (expression g)
  filters (value : Expr) : SettlesFrom c r 0 fun n => filters g n value
  arguments : SettlesFrom c r 0 (arguments g)
  choices : SettlesFrom c r 1 (choices g)
  choice : SettlesFrom c r 1 (choice g)
  level (i : Nat) : SettlesFrom c r 1 fun n => level g n i
  chain (i : Nat) {operators : List (List Word × BinaryOp)} (h : ∀ o ∈ operators, o.1 ≠ [])
    (left : Expr) : SettlesFrom c r 0 fun n => chain g n i operators left
  operand : SettlesFrom c r 1 (operand g)
  members (base : Expr) : SettlesFrom c r 0 fun n => members g n base
  subscript (base : Expr) : SettlesFrom c r 0 fun n => subscript g n base
  sequence (close : Symbol) : SettlesFrom c r 0 fun n => sequence g n close
  primary : SettlesFrom c r 1 (primary g)
  group : SettlesFrom c r 0 (group g)
  braces : SettlesFrom c r 0 (braces g)
  entries : SettlesFrom c r 0 (entries g)

theorem SettlesFrom.zero {c k : Nat} {p : Nat → Parse α} : SettlesFrom c 0 k p :=
  fun _ _ x _ _ hx => absurd hx (Nat.not_lt_zero x)

theorem settled_zero (g : Grammar) (c : Nat) : Settled g c 0 where
  expression := .zero
  filters _ := .zero
  arguments := .zero
  choices := .zero
  choice := .zero
  level _ := .zero
  chain _ _ _ _ := .zero
  operand := .zero
  members _ := .zero
  subscript _ := .zero
  sequence _ := .zero
  primary := .zero
  group := .zero
  braces := .zero
  entries := .zero

section
variable {g : Grammar} {c r : Nat}

/-- A primary expression calls readers of expressions behind its first token only. -/
theorem Settled.primary_succ (ih : Settled g c r) :
    SettlesFrom (c + 1) (r + 1) 1 (Parse.primary g) := by
  refine .succ fun n m x hn hm hx => ?_
  change Settles x 1 (advance >>= _) (advance >>= _)
  refine settles_advance (fun _ => settles_fault (by nofun) _) fun l offset y hy => ?_
  cases l with
  | int i => exact settles_pure _
  | float x => exact settles_pure _
  | str s => exact settles_pure _
  | stop => exact settles_fault (by nofun) _
  | word w =>
    cases w with
    | name s => exact settles_nameExpr g _ _
    | symbol s =>
      cases s with
      | minus =>
        dsimp only
        split
        · exact settles_negativeNumber.mono (Nat.zero_le 1)
        · exact settles_fault (by nofun) _
      | lparen => exact ih.group n m y hn hm (by omega)
      | lbracket =>
        exact (ih.sequence _ n m y hn hm (by omega)).bind fun items _ _ => settles_pure _
      | lbrace =>
        dsimp only
        split
        · exact ih.braces n m y hn hm (by omega)
        · exact settles_fault (by nofun) _
      | _ => exact settles_fault (by nofun) _

theorem Settled.operand_succ (ih : Settled g c r) :
    SettlesFrom (c + 2) (r + 1) 1 (Parse.operand g) := by
  refine .succ fun n m x hn hm hx => ?_
  rw [Parse.operand, Parse.operand]
  exact (ih.primary_succ n m x hn hm hx).bind fun base y hy =>
    ih.members base n m y (by omega) (by omega) (by omega)

/-- A level calls the next one, or itself behind a token. -/
theorem Settled.level_step (hg : g.Spelled) (ih : Settled g c r) {i : Nat}
    (next : i < g.levels.length →
      SettlesFrom (c + (g.levels.length - (i + 1)) + 3) (r + 1) 1
        fun n => Parse.level g n (i + 1)) :
    SettlesFrom (c + (g.levels.length - i) + 3) (r + 1) 1 fun n => Parse.level g n i := by
  refine .succ fun n m x hn hm hx => ?_
  cases hl : g.levels[i]? with
  | none =>
    simp only [Parse.level, hl]
    exact ih.operand_succ n m x (by omega) (by omega) hx
  | some l =>
    have hi : i < g.levels.length := (List.getElem?_eq_some_iff.mp hl).1
    have next := next hi n m x (by omega) (by omega) hx
    -- behind a token every level is read with the bound that is left
    have again : ∀ j y, y + 1 ≤ x → Settles y 1 (Parse.level g n j) (Parse.level g m j) :=
      fun j y hy => ih.level j n m y (by omega) (by omega) (by omega)
    cases l with
    | between operators =>
      simp only [Parse.level, hl]
      have hw : ∀ o ∈ operators, o.1 ≠ [] := hg _ (List.mem_of_getElem? hl)
      exact next.bind fun left y hy =>
        ih.chain i hw left n m y (by omega) (by omega) (by omega)
    | negation =>
      simp only [Parse.level, hl]
      exact .eat (fun y hy => (again i y hy).bind fun e _ _ => settles_pure _) next
    | signs operators =>
      simp only [Parse.level, hl]
      exact .sign (fun op y hy => (again i y hy).bind fun e _ _ => settles_pure _) next
    | power =>
      simp only [Parse.level, hl]
      refine (ih.operand_succ n m x (by omega) (by omega) hx).bind fun base y hy => ?_
      refine .eat (fun z hz => ?_) (settles_pure _)
      exact (again (i - 1) z (by omega)).bind fun e _ _ => settles_pure _

theorem Settled.level_succ (hg : g.Spelled) (ih : Settled g c r) (i : Nat) :
    SettlesFrom (c + (g.levels.length - i) + 3) (r + 1) 1 fun n => Parse.level g n i := by
  induction hd : g.levels.length - i generalizing i with
  | zero =>
    rw [← hd]
    exact ih.level_step hg fun hi => by omega
  | succ d ihd =>
    rw [← hd]
    refine ih.level_step hg fun hi => ?_
    have hd' : g.levels.length - (i + 1) = d := by omega
    rw [hd']
    exact ihd (i + 1) hd'

theorem Settled.choice_succ (hg : g.Spelled) (ih : Settled g c r) :
    SettlesFrom (c + g.levels.length + 4) (r + 1) 1 (Parse.choice g) := by
  refine .succ fun n m x hn hm hx => ?_
  rw [Parse.choice, Parse.choice]
  refine (ih.level_succ hg 0 n m x (by omega) (by omega) hx).bind fun yes y hy => ?_
  refine .check_tail (fun z hz => ?_) (settles_pure _)
  refine (ih.level 0 n m z (by omega) (by omega) (by omega)).bind fun cond z' hz' => ?_
  refine (settles_expect _).bind fun _ z'' hz'' => ?_
  exact (ih.choice n m z'' (by omega) (by omega) (by omega)).bind fun no _ _ => settles_pure _

theorem Settled.expression_succ (hg : g.Spelled) (ih : Settled g c r) :
    SettlesFrom (c + g.levels.length + 5) (r + 1) 1 (Parse.expression g) := by
  refine .succ fun n m x hn hm hx => ?_
  rw [Parse.expression, Parse.expression]
  exact (ih.choice_succ hg n m x hn hm hx).bind fun value y hy =>
    ih.filters value n m y (by omega) (by omega) (by omega)

theorem Settled.choices_succ (hg : g.Spelled) (ih : Settled g c r) :
    SettlesFrom (c + g.levels.length + 5) (r + 1) 1 (Parse.choices g) := by
  refine .succ fun n m x hn hm hx => ?_
  rw [Parse.choices, Parse.choices]
  refine (ih.choice_succ hg n m x hn hm hx).bind fun first y hy => ?_
  refine .eat (fun z hz => ?_) (settles_pure _)
  exact (ih.choices n m z (by omega) (by omega) (by omega)).bind fun more _ _ => settles_pure _

theorem Settled.filters_succ (ih : Settled g c r) (value : Expr) :
    SettlesFrom (c + 1) (r + 1) 0 fun n => Parse.filters g n value := by
  refine .succ fun n m x hn hm hx => ?_
  simp only [Parse.filters]
  refine .eat (fun y hy => ?_) (settles_pure _)
  refine settles_filterName.bind fun name z hz => ?_
  refine (ih.arguments n m z hn hm (by omega)).bind fun args z' hz' => ?_
  exact ih.filters _ n m z' hn hm (by omega)

theorem Settled.arguments_succ (ih : Settled g c r) :
    SettlesFrom (c + 1) (r + 1) 0 (Parse.arguments g) := by
  refine .succ fun n m x hn hm hx => ?_
  rw [Parse.arguments, Parse.arguments]
  refine .eat (fun y hy => ?_) (.eat (fun y hy => ?_) (settles_pure _))
  · exact (ih.choices n m y hn hm (by omega)).mono (Nat.zero_le 1)
  · exact ih.sequence _ n m y hn hm (by omega)

theorem Settled.chain_succ (ih : Settled g c r) (i : Nat) {operators : List (List Word × BinaryOp)}
    (h : ∀ o ∈ operators, o.1 ≠ []) (left : Expr) :
    SettlesFrom (c + 1) (r + 1) 0 fun n => Parse.chain g n i operators left := by
  refine .succ fun n m x hn hm hx => ?_
  simp only [Parse.chain]
  refine .operator h (fun op y hy => ?_) (settles_pure _)
  refine (ih.level _ n m y hn hm (by omega)).bind fun right z hz => ?_
  exact ih.chain i h _ n m z hn hm (by omega)

theorem Settled.members_succ (ih : Settled g c r) (base : Expr) :
    SettlesFrom (c + 1) (r + 1) 0 fun n => Parse.members g n base := by
  refine .succ fun n m x hn hm hx => ?_
  simp only [Parse.members]
  refine .eat (fun y hy => ?_) (.eat (fun y hy => ?_)
    (.check_tail (fun y hy => ?_) (settles_pure _)))
  · exact settles_attributeName.bind fun name z hz => ih.members _ n m z hn hm (by omega)
  · refine (ih.subscript base n m y hn hm (by omega)).bind fun e z hz => ?_
    exact (settles_expect _).bind fun _ z' hz' => ih.members _ n m z' hn hm (by omega)
  · exact (ih.sequence _ n m y hn hm (by omega)).bind fun args z hz =>
      ih.members _ n m z hn hm (by omega)

theorem Settled.entries_succ (ih : Settled g c r) :
    SettlesFrom (c + 1) (r + 1) 0 (Parse.entries g) := by
  refine .succ fun n m x hn hm hx => ?_
  rw [Parse.entries, Parse.entries]
  have expression : ∀ y, y + 1 ≤ x → Settles y 1 (Parse.expression g n) (Parse.expression g m) :=
    fun y hy => ih.expression n m y hn hm (by omega)
  refine .eat (fun y hy => ?_) ((settles_expect _).bind fun _ _ _ => settles_pure _)
  refine .eat (fun _ _ => settles_pure _) ?_
  refine (expression y (by omega)).bind fun key z hz => (settles_expect _).bind fun _ z hz => ?_
  refine (expression z (by omega)).bind fun value z hz => ?_
  exact (ih.entries n m z hn hm (by omega)).bind fun es _ _ => settles_pure _

/-! Brackets begin with an expression, behind which everything has a token less. -/

theorem Settled.sequence_succ (hg : g.Spelled) (ih : Settled g c r) (close : Symbol) :
    SettlesFrom (c + g.levels.length + 6) (r + 1) 0 fun n => Parse.sequence g n close := by
  refine .succ fun n m x hn hm hx => ?_
  simp only [Parse.sequence]
  refine .eat (fun _ _ => settles_pure _) ?_
  refine (ih.expression_succ hg n m x hn hm hx).bind fun first y hy => ?_
  refine .eat (fun z hz => ?_) ((settles_expect _).bind fun _ _ _ => settles_pure _)
  exact (ih.sequence close n m z (by omega) (by omega) (by omega)).bind fun more _ _ =>
    settles_pure _

theorem Settled.group_succ (hg : g.Spelled) (ih : Settled g c r) :
    SettlesFrom (c + g.levels.length + 6) (r + 1) 0 (Parse.group g) := by
  refine .succ fun n m x hn hm hx => ?_
  rw [Parse.group, Parse.group]
  refine .check_tail (fun _ _ => settles_pure _) ?_
  refine (ih.expression_succ hg n m x hn hm hx).bind fun first y hy => ?_
  have close : ∀ (z : Nat) (e : Expr), Settles z 0 (do expect (.symbol .rparen); return e)
      (do expect (.symbol .rparen); return e) :=
    fun z e => (settles_expect _).bind fun _ _ _ => settles_pure _
  refine .check_tail (fun z hz => ?_) (.check_tail (fun z hz => ?_) (close y first))
  · exact (ih.expression n m z (by omega) (by omega) (by omega)).bind fun last z' _ => close z' _
  · exact (ih.sequence _ n m z (by omega) (by omega) (by omega)).bind fun items _ _ =>
      settles_pure _

theorem Settled.braces_succ (hg : g.Spelled) (ih : Settled g c r) :
    SettlesFrom (c + g.levels.length + 6) (r + 1) 0 (Parse.braces g) := by
  refine .succ fun n m x hn hm hx => ?_
  rw [Parse.braces, Parse.braces]
  refine .eat (fun _ _ => settles_pure _) ?_
  refine (ih.expression_succ hg n m x hn hm hx).bind fun first y hy => ?_
  refine .eat (fun z hz => ?_) (.eat (fun z hz => ?_) ?_)
  · refine (ih.expression n m z (by omega) (by omega) (by omega)).bind fun value z' hz' => ?_
    exact (ih.entries n m z' (by omega) (by omega) (by omega)).bind fun es _ _ => settles_pure _
  · exact (ih.sequence _ n m z (by omega) (by omega) (by omega)).bind fun more _ _ =>
      settles_pure _
  · exact (settles_expect _).bind fun _ _ _ => settles_pure _

theorem Settled.subscript_succ (hg : g.Spelled) (ih : Settled g c r) (base : Expr) :
    SettlesFrom (c + g.levels.length + 6) (r + 1) 0 fun n => Parse.subscript g n base := by
  refine .succ fun n m x hn hm hx => ?_
  simp only [Parse.subscript]
  -- a bound is read or left out, and the reader goes on with it
  have bound : ∀ (y : Nat) (b : Bool) (next next' : Option Expr → Parse Expr), y ≤ x →
      (∀ e z, z ≤ y → Settles z 0 (next e) (next' e)) →
      Settles y 0 (if b then pure none >>= next else some <$> Parse.expression g n >>= next)
        (if b then pure none >>= next' else some <$> Parse.expression g m >>= next') := by
    intro y b next next' hy hnext
    cases b with
    | true => exact (settles_pure none).bind fun e z hz => hnext e z hz
    | false =>
      have hexpression := (ih.expression_succ hg n m y hn hm (by omega)).map some
      exact hexpression.bind fun e z hz => hnext e z (by omega)
  refine (settles_check _).bind fun b y hy => bound y b _ _ hy fun start y' hy' => ?_
  refine .check_tail (fun z hz => ?_) ?_
  · refine (settles_check _).bind fun b₁ z₁ hz₁ => (settles_check _).bind fun b₂ z₂ hz₂ =>
      bound z₂ (b₁ || b₂) _ _ (by omega) fun stop z₃ hz₃ => ?_
    refine .eat (fun z₄ hz₄ => ?_) ((settles_pure none).bind fun step _ _ => settles_pure _)
    exact (settles_check _).bind fun b z₅ hz₅ =>
      bound z₅ b _ _ (by omega) fun step _ _ => settles_pure _
  · cases start with
    | some key => exact settles_pure _
    | none => exact settles_expected _

/-- One token more. -/
theorem Settled.succ (hg : g.Spelled) (ih : Settled g c r) :
    Settled g (c + (g.levels.length + 7)) (r + 1) where
  expression := (ih.expression_succ hg).mono (by omega)
  filters value := (ih.filters_succ value).mono (by omega)
  arguments := ih.arguments_succ.mono (by omega)
  choices := (ih.choices_succ hg).mono (by omega)
  choice := (ih.choice_succ hg).mono (by omega)
  level i := (ih.level_succ hg i).mono (by omega)
  chain i _ h left := (ih.chain_succ i h left).mono (by omega)
  operand := ih.operand_succ.mono (by omega)
  members base := (ih.members_succ base).mono (by omega)
  subscript base := (ih.subscript_succ hg base).mono (by omega)
  sequence close := (ih.sequence_succ hg close).mono (by omega)
  primary := ih.primary_succ.mono (by omega)
  group := (ih.group_succ hg).mono (by omega)
  braces := (ih.braces_succ hg).mono (by omega)
  entries := ih.entries_succ.mono (by omega)

/-- A bound for each token is large enough for all readers. -/
theorem settled (hg : g.Spelled) (r : Nat) : Settled g ((g.levels.length + 7) * r) r := by
  induction r with
  | zero => exact settled_zero g _
  | succ r ih => exact ih.succ hg

end

/-! ### Progress -/

/-- On this stream the reader has one result with the bound on nesting that expressions are read
with and with every larger one; the result is not the failure of a bound. -/
def Terminates (g : Grammar) (p : Nat → Parse α) (s : TokenStream) : Prop :=
  ∃ result, (∀ n, s.depth g ≤ n → p n s = result) ∧
    ∀ offset, result ≠ .error (.parse .tooDeep offset)

/-- On this stream the reader terminates.  If it succeeds, it has consumed a token at least, and
what is left are the tokens behind, up to the same end; at the end it fails. -/
structure Progresses (g : Grammar) (p : Nat → Parse α) (s : TokenStream) : Prop where
  terminates : Terminates g p s
  forward : ∀ n a t, s.depth g ≤ n → p n s = .ok (a, t) →
    t.stop = s.stop ∧ ∃ used, used ≠ [] ∧ s.rest = used ++ t.rest
  at_end : s.rest = [] → ∀ n, s.depth g ≤ n → ∃ e, p n s = .error e

section
variable {g : Grammar} {p : Nat → Parse α} {k : Nat} {s : TokenStream}

/-- The bound that expressions are read with is one for each token, and one more. -/
theorem SettlesFrom.settlesAt
    (h : SettlesFrom ((g.levels.length + 7) * (s.rest.length + 1)) (s.rest.length + 1) k p)
    {n m : Nat} (hn : s.depth g ≤ n) (hm : s.depth g ≤ m) : SettlesAt k (p n) (p m) s := by
  have hdepth : (g.levels.length + 7) * (s.rest.length + 1) ≤ s.depth g :=
    Nat.mul_le_mul_left _ (Nat.le_succ _)
  exact h n m _ (hdepth.trans hn) (hdepth.trans hm) (Nat.lt_succ_self _) s (Nat.le_refl _)

theorem SettlesFrom.terminates
    (h : SettlesFrom ((g.levels.length + 7) * (s.rest.length + 1)) (s.rest.length + 1) k p) :
    Terminates g p s :=
  ⟨p (s.depth g) s, fun _ hn => (h.settlesAt hn (Nat.le_refl _)).agrees,
    (h.settlesAt (Nat.le_refl _) (Nat.le_refl _)).shallow⟩

theorem SettlesFrom.progresses
    (h : SettlesFrom ((g.levels.length + 7) * (s.rest.length + 1)) (s.rest.length + 1) 1 p) :
    Progresses g p s where
  terminates := h.terminates
  forward n a t hn hok := by
    obtain ⟨hstop, used, hused, hrest⟩ := (h.settlesAt hn hn).moves a t hok
    exact ⟨hstop, used, List.length_pos_iff.mp hused, hrest⟩
  at_end hs n hn := by
    cases hres : p n s with
    | error e => exact ⟨e, rfl⟩
    | ok x =>
      have hlength := ((h.settlesAt hn hn).moves x.1 x.2 hres).length_add_le
      rw [hs, List.length_nil] at hlength
      omega

end

/-- **The reader of expressions makes progress.**  In both dialects and on all tokens, every
function of the reader has a result, which no larger bound on nesting changes.  An expression, an
expression without filters, one of any level, an operand and a primary expression that is read has
a token at least; none of them goes past the end, and none is read there. -/
theorem readers_progress (mode : Mode) (s : TokenStream) :
    let g := mode.grammar
    Progresses g (expression g) s ∧ Progresses g (choice g) s ∧
      (∀ i, Progresses g (fun n => level g n i) s) ∧
      Progresses g (operand g) s ∧ Progresses g (primary g) s ∧
      (∀ base, Terminates g (fun n => subscript g n base) s) ∧
      ∀ close, Terminates g (fun n => sequence g n close) s := by
  intro g
  have h := settled mode.spelled_grammar (s.rest.length + 1)
  exact ⟨h.expression.progresses, h.choice.progresses, fun i => (h.level i).progresses,
    h.operand.progresses, h.primary.progresses, fun base => (h.subscript base).terminates,
    fun close => (h.sequence close).terminates⟩

/-- A text is never too deep to be an expression. -/
theorem expr_ne_tooDeep (mode : Mode) (s : TokenStream) (offset : Nat) :
    expr mode.grammar s ≠ .error (.parse .tooDeep offset) :=
  let h := (settled mode.spelled_grammar _).expression
  (h.settlesAt (Nat.le_refl _) (Nat.le_refl _)).shallow offset

end Parse

end TemplateEngine
