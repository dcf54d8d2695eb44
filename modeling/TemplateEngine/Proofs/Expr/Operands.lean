import TemplateEngine.Proofs.Expr.Phrases

/-!
# Operands of the python grammar

Literals, names and whatever stands in parentheses are read whole, no matter which tokens are behind
them: they are *operands* (`Operand`).  An operand is an operand of every level whose words do not
come next (`Operand.level`), and with the members, calls and subscripts behind it a phrase.
-/

namespace TemplateEngine

/-- Tokens that are read as an operand in front of all tokens. -/
structure Operand (ls : List Lexeme) (x : Expr) : Prop where
  begins : ∃ l more, ls = l :: more ∧ l.isStart = true ∧ l ≠ .word (.symbol .minus)
  reads (n : Nat) (h : 20 * ls.length ≤ n + 19) (rest : List Lexeme) :
    Parse.Consumes (Parse.primary Grammar.python (n + 1)) ls rest x

namespace Operand

open Parse

variable {ls rest : List Lexeme} {x : Expr} {n : Nat}

/-- A token that is a primary expression. -/
theorem atom {l : Lexeme} (hl : l.isStart = true) (hne : l ≠ .word (.symbol .minus))
    (h : ∀ n rest, Consumes (primary Grammar.python (n + 1)) [l] rest x) : Operand [l] x :=
  ⟨⟨l, [], rfl, hl, hne⟩, fun n _ rest => h n rest⟩

theorem int (i : Int64) : Operand [.int i] (.literal (.int i)) := by
  refine atom rfl (by simp) fun n rest => ?_
  change Consumes (advance >>= _) _ _ _
  exact consumes_advance fun _ => consumes_pure _ rest

theorem str (s : String) : Operand [.str s] (.literal (.str s)) := by
  refine atom rfl (by simp) fun n rest => ?_
  change Consumes (advance >>= _) _ _ _
  exact consumes_advance fun _ => consumes_pure _ rest

theorem keyword {name : String} {k : Keyword} (h : Grammar.python.keywords.lookup name = some k)
    (hnot : name ≠ "not") : Operand [.word (.name name)] k.expr := by
  refine atom (bne_iff_ne.mpr hnot) (by simp) fun n rest => ?_
  change Consumes (advance >>= _) _ _ _
  refine consumes_advance fun offset => ?_
  simp only [nameExpr, h]
  exact consumes_pure _ rest

theorem var {name : String} (hk : Grammar.python.keywords.lookup name = none)
    (hr : Grammar.python.reserved.contains name = false) :
    Operand [.word (.name name)] (.var name) := by
  have hnot : name ≠ "not" := by
    rintro rfl
    exact absurd hr (by decide)
  refine atom (bne_iff_ne.mpr hnot) (by simp) fun n rest => ?_
  change Consumes (advance >>= _) _ _ _
  refine consumes_advance fun offset => ?_
  simp only [nameExpr, hk, hr]
  exact consumes_pure _ rest

/-- An operand is a phrase. -/
theorem phrase (h : Operand ls x) : Phrase ls x := by
  obtain ⟨l, more, rfl, hl, hne⟩ := h.begins
  refine Phrase.of_primary hl hne fun n hn => takes_iff.mpr fun rest _ => ?_
  exact h.reads (n + 1) (by simp; omega) rest

theorem unled (h : Operand ls x) :
    ∃ l more, ls = l :: more ∧ Unled 13 l ∧ l ≠ .word (.symbol .rparen) := by
  obtain ⟨l, more, hls, hl, hne⟩ := h.begins
  refine ⟨l, more, hls, unled_of_isStart hl hne, ?_⟩
  rintro rfl
  cases hl

/-- An operand is an operand of every level. -/
theorem level (h : Operand ls x) {j k : Nat} (hjk : j + k = 13) (hn : 20 * ls.length ≤ n + 19)
    (hq : Quiet Grammar.python j rest) :
    Consumes (Parse.level Grammar.python (n + 3 + k) j) ls rest x := by
  obtain ⟨l, more, hls, hl, -⟩ := h.unled
  have hprimary := h.reads n hn rest
  subst hls
  refine consumes_levels hjk.le (hjk ▸ hl) hq (hjk ▸ ?_)
  exact consumes_power (consumes_operand hprimary hq) (hq.mono (by omega))

/-- A sign in front of an operand. -/
theorem takes_signed {s : Symbol} {op : UnaryOp}
    (hs : [(Symbol.plus, UnaryOp.pos), (.minus, .neg), (.tilde, .invert)].find? (·.1 == s) =
      some (s, op)) (h : Operand ls x) (hn : 20 * ls.length ≤ n + 19) :
    Takes (Parse.level Grammar.python (n + 5) 12) (.word (.symbol s) :: ls) (.unary op x) := by
  refine takes_iff.mpr fun rest hr => ?_
  have hx := h.level (j := 12) (k := 1) rfl hn ((quiet_of_ends hr).mono (Nat.zero_le 12))
  rw [Parse.level]
  exact (consumes_sign?_some hs).bind (hx.andThen (consumes_pure _ rest))

end Operand

/-! ### Phrases of operands -/

namespace Phrase

open Parse

variable {ls ms rs rest : List Lexeme} {x y : Expr} {xs : List Expr}
  {parts : List (List Lexeme)}

theorem int (i : Int64) : Phrase [.int i] (.literal (.int i)) := (Operand.int i).phrase

theorem str (s : String) : Phrase [.str s] (.literal (.str s)) := (Operand.str s).phrase

theorem keyword {name : String} {k : Keyword} (h : Grammar.python.keywords.lookup name = some k)
    (hnot : name ≠ "not") : Phrase [.word (.name name)] k.expr :=
  (Operand.keyword h hnot).phrase

/-- A minus in front of an integer is an operator. -/
theorem neg_int (i : Int64) :
    Phrase [.word (.symbol .minus), .int i] (.unary .neg (.literal (.int i))) := by
  refine ⟨⟨_, rfl, rfl⟩, fun n hn => ?_⟩
  obtain ⟨m, rfl⟩ : ∃ m, n = m + 4 + 1 + 12 + 2 := ⟨n - 19, by simp at hn; omega⟩
  refine takes_expression (i := 12) (by decide) (by decide) ?_
  exact (Operand.int i).takes_signed rfl (by simp at hn ⊢; omega)

/-! ### Members and calls -/

/-- An operand and what is read behind it as its members. -/
theorem of_members (hx : Operand ls x)
    (h : ∀ n, 20 * ms.length ≤ n → Takes (members Grammar.python (n + 2) x) ms y) :
    Phrase (ls ++ ms) y := by
  obtain ⟨l, more, rfl, hl, hne⟩ := hx.begins
  rw [List.cons_append]
  refine of_operand hl hne fun n hn => takes_iff.mpr fun rest hr => ?_
  rw [List.length_append] at hn
  rw [operand, ← List.cons_append]
  exact (hx.reads (n + 1) (by simp; omega) _).bind (takes_iff.mp (h n (by omega)) rest hr)

theorem takes_members_nil {n : Nat} (x : Expr) :
    Takes (members Grammar.python (n + 1) x) [] x :=
  takes_iff.mpr fun _ hr => consumes_members_nil (quiet_of_ends hr) x

theorem attr (hx : Operand ls x) (name : String) :
    Phrase (ls ++ [.word (.symbol .dot), .word (.name name)]) (.attr x name) := by
  refine of_members hx fun n _ => ?_
  have hname : Takes attributeName [.word (.name name)] name := takes_advance fun _ => takes_pure _
  rw [members]
  exact takes_eat (hname.andThen (takes_members_nil _))

theorem call (hx : Operand ls x) (h : List.Forall₂ Phrase parts xs) :
    Phrase (ls ++ bracketed .lparen .rparen parts) (.call x xs) := by
  refine of_members hx fun n hn => ?_
  simp only [bracketed, List.length_append, List.length_cons, List.length_nil] at hn
  rw [members, bracketed]
  refine takes_eat_of_avoids (avoids_cons (by simp)) ?_
  refine takes_eat_of_avoids (avoids_cons (by simp)) (takes_check (takes_tail ?_))
  have hargs := takes_sequence .rparen (by decide) h (n + 1) (by omega)
  exact hargs.andThen (takes_members_nil _)

/-- A call of a name without arguments. -/
theorem call_name {name : String} (hk : Grammar.python.keywords.lookup name = none)
    (hr : Grammar.python.reserved.contains name = false) :
    Phrase [.word (.name name), .word (.symbol .lparen), .word (.symbol .rparen)]
      (.call (.var name) []) :=
  call (Operand.var hk hr) .nil

/-! ### Subscripts -/

/-- An operand and what is read between the brackets behind it. -/
theorem of_subscript (hx : Operand ls x)
    (h : ∀ n rest, 20 * ms.length ≤ n → Consumes (subscript Grammar.python (n + 1) x) ms
      (.word (.symbol .rbracket) :: rest) y) :
    Phrase (ls ++ .word (.symbol .lbracket) :: (ms ++ [.word (.symbol .rbracket)])) y := by
  refine of_members hx fun n hn => takes_iff.mpr fun rest hr => ?_
  simp only [List.length_append, List.length_cons, List.length_nil] at hn
  rw [members]
  refine consumes_eat_of_ne (by simp) (consumes_eat ?_)
  refine (h n rest (by omega)).bind (consumes_expect ?_)
  exact takes_iff.mp (takes_members_nil y) rest hr

/-- The tokens of a bound of a slice, which may be left out. -/
def Part (ls : List Lexeme) : Option Expr → Prop
  | none => ls = []
  | some x => Phrase ls x

/-- The tokens of the step of a slice; a colon stands in front of it, unless it is left out. -/
def Step (ls : List Lexeme) : Option Expr → Prop
  | none => ls = []
  | some x => ∃ ks, ls = .word (.symbol .colon) :: ks ∧ Phrase ks x

section
variable {n : Nat} {part step : Option Expr} {f : Option Expr → Parse Expr}

/-- The first bound of a slice is left out when the colon behind it comes next. -/
theorem consumes_start (hp : Part ls part) (hn : 20 * ls.length ≤ n)
    (hf : Consumes (f part) (.word (.symbol .colon) :: ms) rest y) :
    Consumes (check (.symbol .colon) >>= fun c =>
      if c = true then (pure none : Parse (Option Expr)) >>= f
      else some <$> expression Grammar.python n >>= f)
      (ls ++ .word (.symbol .colon) :: ms) rest y := by
  cases part with
  | none =>
    cases hp
    exact consumes_check rfl hf
  | some x =>
    have hx : Phrase ls x := hp
    refine consumes_check_of_ne (hx.headD_append_ne rfl _ _) ?_
    exact ((hx.consumes hn (ends_cons.mpr rfl)).map some).bind hf

/-- The step of a slice is left out when the bracket behind it comes next. -/
theorem consumes_step (hs : Step ls step) (hn : 20 * ls.length ≤ n)
    (hf : Consumes (f step) [] (.word (.symbol .rbracket) :: rest) y) :
    Consumes (eat (.symbol .colon) >>= fun c =>
      if c = true then check (.symbol .rbracket) >>= fun c =>
        if c = true then (pure none : Parse (Option Expr)) >>= f
        else some <$> expression Grammar.python n >>= f
      else (pure none : Parse (Option Expr)) >>= f)
      ls (.word (.symbol .rbracket) :: rest) y := by
  cases step with
  | none =>
    cases hs
    exact consumes_eat_of_ne (by simp) hf
  | some x =>
    obtain ⟨ks, rfl, hx⟩ := hs
    rw [List.length_cons] at hn
    refine consumes_eat (consumes_check_of_ne (hx.headD_ne rfl _) ?_)
    exact ((hx.consumes (by omega) (ends_cons.mpr rfl)).map some).andThen hf

/-- The last bound of a slice is left out when a step or the bracket comes next. -/
theorem consumes_stop (hp : Part ls part) (hs : Step ms step) (hn : 20 * ls.length ≤ n)
    (hf : Consumes (f part) ms (.word (.symbol .rbracket) :: rest) y) :
    Consumes (check (.symbol .rbracket) >>= fun b => check (.symbol .colon) >>= fun c =>
      if (b || c) = true then (pure none : Parse (Option Expr)) >>= f
      else some <$> expression Grammar.python n >>= f)
      (ls ++ ms) (.word (.symbol .rbracket) :: rest) y := by
  cases part with
  | some x =>
    have hx : Phrase ls x := hp
    have hends : Ends (ms ++ .word (.symbol .rbracket) :: rest) := by
      cases step with
      | none => cases hs; exact ends_cons.mpr rfl
      | some x => obtain ⟨ks, rfl, -⟩ := hs; exact ends_cons.mpr rfl
    refine consumes_check_of_ne (hx.headD_append_ne rfl _ _) ?_
    refine consumes_check_of_ne (hx.headD_append_ne rfl _ _) ?_
    exact ((hx.consumes hn hends).map some).bind hf
  | none =>
    cases hp
    cases step with
    | none =>
      cases hs
      exact consumes_check rfl (consumes_check_of_ne (by simp) hf)
    | some x =>
      obtain ⟨ks, rfl, -⟩ := hs
      exact consumes_check_of_ne (by simp) (consumes_check rfl hf)

end

theorem index (hx : Operand ls x) (hk : Phrase ms y) :
    Phrase (ls ++ .word (.symbol .lbracket) :: (ms ++ [.word (.symbol .rbracket)]))
      (.index x y) := by
  refine of_subscript hx fun n rest hn => ?_
  have hkey : Consumes (expression Grammar.python n) ms (.word (.symbol .rbracket) :: rest) y :=
    hk.consumes hn (ends_cons.mpr rfl)
  rw [subscript]
  refine consumes_check_of_ne (hk.headD_ne rfl _) ((hkey.map some).andThen ?_)
  exact consumes_check_of_ne (by simp) (consumes_pure _ _)

theorem slice {start stop step : Option Expr} {ks : List Lexeme} (hx : Operand ls x)
    (hstart : Part ms start) (hstop : Part rs stop) (hstep : Step ks step) :
    Phrase (ls ++ .word (.symbol .lbracket) ::
      (ms ++ .word (.symbol .colon) :: (rs ++ ks) ++ [.word (.symbol .rbracket)]))
      (.slice x start stop step) := by
  refine of_subscript hx fun n rest hn => ?_
  simp only [List.length_append, List.length_cons] at hn
  rw [subscript]
  refine consumes_start hstart (by omega) (consumes_check rfl (consumes_tail ?_))
  refine consumes_stop hstop hstep (by omega) ?_
  exact consumes_step hstep (by omega) (consumes_pure _ _)

end Phrase

end TemplateEngine
