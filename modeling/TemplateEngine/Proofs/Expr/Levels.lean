import Mathlib.Tactic.IntervalCases
import TemplateEngine.Proofs.Expr.Consumes

/-!
# Levels of the python grammar

An operand of a level is one of every looser level too, as long as no word in front of it and none
behind it belongs to a level in between.  Which words those are is a matter of the grammar: the
words that a level takes in front of an operand (`Level.leads`) and those that what it takes behind
one begins with (`Level.links`).  Levels are passed one at a time (`Parse.consumes_level`), so a
row of levels by induction (`Parse.consumes_levels`), from the tightest one up to expressions.
-/

namespace TemplateEngine

/-- The operators that stand between operands of the level. -/
def Level.operators : Level → List (List Word × BinaryOp)
  | .between operators => operators
  | .negation | .signs _ | .power => []

/-- The words that the level takes in front of an operand. -/
def Level.leads : Level → List Word
  | .negation => [.name "not"]
  | .signs operators => operators.map fun o => .symbol o.1
  | .between _ | .power => []

/-- The first words of what the level takes behind an operand. -/
def Level.links : Level → List Word
  | .between operators => operators.flatMap fun o => o.1.take 1
  | .power => [.symbol .starStar]
  | .negation | .signs _ => []

/-- None of the first `i` levels takes the token in front of an operand. -/
def Unled (i : Nat) (l : Lexeme) : Prop :=
  ∀ w ∈ (Grammar.python.levels.take i).flatMap Level.leads, l ≠ .word w

/-- The words that an operand of the level `i` or a tighter one goes on with: those of members,
subscripts and calls, and those of the levels. -/
def Grammar.followers (g : Grammar) (i : Nat) : List Word :=
  [.symbol .dot, .symbol .lbracket, .symbol .lparen] ++ (g.levels.drop i).flatMap Level.links

/-- No operand of the level `i` of the grammar or a tighter one goes on with these tokens. -/
def Quiet (g : Grammar) (i : Nat) (rest : List Lexeme) : Prop :=
  ∀ w ∈ g.followers i, rest.headD .stop ≠ .word w

instance (i : Nat) (l : Lexeme) : Decidable (Unled i l) :=
  inferInstanceAs (Decidable (∀ w ∈ (Grammar.python.levels.take i).flatMap Level.leads, _))

instance (g : Grammar) (i : Nat) (rest : List Lexeme) : Decidable (Quiet g i rest) :=
  inferInstanceAs (Decidable (∀ w ∈ g.followers i, _))

theorem Unled.mono {i j : Nat} {l : Lexeme} (h : Unled j l) (hij : i ≤ j) : Unled i l := by
  intro w hw
  obtain ⟨level, hl, hw⟩ := List.mem_flatMap.mp hw
  exact h w (List.mem_flatMap.mpr ⟨level, (List.take_subset_take_left _ hij) hl, hw⟩)

theorem Quiet.mono {g : Grammar} {i j : Nat} {rest : List Lexeme} (h : Quiet g i rest)
    (hij : i ≤ j) : Quiet g j rest := by
  intro w hw
  rcases List.mem_append.mp hw with hw | hw
  · exact h w (List.mem_append_left _ hw)
  · obtain ⟨level, hl, hw⟩ := List.mem_flatMap.mp hw
    have hl' := (List.drop_subset_drop_left _ hij) hl
    exact h w (List.mem_append_right _ (List.mem_flatMap.mpr ⟨level, hl', hw⟩))

/-- Only the next token matters. -/
theorem quiet_cons {g : Grammar} {i : Nat} {l : Lexeme} {rest : List Lexeme} :
    Quiet g i (l :: rest) ↔ Quiet g i [l] :=
  Iff.rfl

section
variable {g : Grammar} {i j : Nat} {level : Level}

theorem Unled.of_level {l : Lexeme} (h : Unled i l) (hl : Grammar.python.levels[j]? = some level)
    (hj : j < i) : ∀ w ∈ level.leads, l ≠ .word w := by
  intro w hw
  rw [← List.getElem?_take_of_lt hj] at hl
  exact h w (List.mem_flatMap.mpr ⟨level, List.mem_of_getElem? hl, hw⟩)

theorem Quiet.of_level {rest : List Lexeme} (h : Quiet g i rest)
    (hl : g.levels[i]? = some level) :
    ∀ w ∈ level.links, rest.headD .stop ≠ .word w := by
  intro w hw
  have hl' : (g.levels.drop i)[0]? = some level := by simpa using hl
  exact h w (List.mem_append_right _ (List.mem_flatMap.mpr ⟨level, List.mem_of_getElem? hl', hw⟩))

/-- Every operator is spelled by a word or more. -/
theorem ne_nil_of_mem_operators (hl : Grammar.python.levels[i]? = some level) :
    ∀ o ∈ level.operators, o.1 ≠ [] := by
  have all : ∀ level ∈ Grammar.python.levels, ∀ o ∈ level.operators, o.1 ≠ [] := by decide
  exact all level (List.mem_of_getElem? hl)

/-- The power level is the last one. -/
theorem eq_of_level_power (hl : Grammar.python.levels[i]? = some .power) : i = 13 := by
  obtain ⟨hi, hp⟩ := List.getElem?_eq_some_iff.mp hl
  have hi : i < 14 := hi
  interval_cases i <;> first | rfl | cases hp

end

namespace Parse

variable {g : Grammar} {ls rest : List Lexeme} {x : Expr} {i n : Nat}

/-- No operator of the level is spelled behind the operand. -/
theorem find?_operators_eq_none {operators : List (List Word × BinaryOp)}
    (hne : ∀ o ∈ operators, o.1 ≠ [])
    (h : ∀ w ∈ (Level.between operators).links, rest.headD .stop ≠ .word w) :
    operators.find? (fun o => spelledBy o.1 rest) = none := by
  refine List.find?_eq_none.mpr fun o ho => ?_
  obtain ⟨w, words, hw⟩ := List.exists_cons_of_ne_nil (hne o ho)
  have hlink : w ∈ (Level.between operators).links :=
    List.mem_flatMap.mpr ⟨o, ho, by simp [hw]⟩
  simp [hw, spelledBy_of_ne (h w hlink)]

theorem consumes_chain_nil {operators : List (List Word × BinaryOp)}
    (h : operators.find? (fun o => spelledBy o.1 rest) = none) (g : Grammar) (x : Expr) :
    Consumes (chain g (n + 1) i operators x) [] rest x := by
  rw [chain]
  exact (consumes_operator?_none h).andThen (consumes_pure x rest)

theorem consumes_sign_none {operators : List (Symbol × UnaryOp)}
    (h : ∀ w ∈ (Level.signs operators).leads, rest.headD .stop ≠ .word w) :
    Consumes (sign? operators) [] rest none := by
  induction operators with
  | nil => exact consumes_pure none rest
  | cons o more ih =>
    rw [sign?]
    exact consumes_eat_of_ne (h _ (by simp [Level.leads]))
      (ih fun w hw => h w (by simp only [Level.leads, List.map_cons] at hw ⊢; simp [hw]))

/-- What the next level takes is taken by the level, if none of its words stands in front of it or
behind it. -/
theorem consumes_level {l : Level} (hl : Grammar.python.levels[i]? = some l) (hi : i < 13)
    (hlead : ∀ w ∈ l.leads, (ls ++ rest).headD .stop ≠ .word w)
    (hlink : ∀ w ∈ l.links, rest.headD .stop ≠ .word w)
    (h : Consumes (level Grammar.python (n + 1) (i + 1)) ls rest x) :
    Consumes (level Grammar.python (n + 2) i) ls rest x := by
  have hne := ne_nil_of_mem_operators hl
  rw [level, hl]
  cases l with
  | between operators =>
    exact h.andThen (consumes_chain_nil (find?_operators_eq_none hne hlink) _ x)
  | negation => exact consumes_eat_of_ne (hlead _ (by simp [Level.leads])) h
  | signs operators =>
    have hnone : Consumes (sign? operators) [] (ls ++ rest) none := consumes_sign_none hlead
    exact hnone.bind h
  | power =>
    have := eq_of_level_power hl
    omega

/-- What a level takes is taken by the levels in front of it. -/
theorem consumes_levels {l : Lexeme} {k : Nat} (hk : i + k ≤ 13) (hlead : Unled (i + k) l)
    (hq : Quiet Grammar.python i rest)
    (h : Consumes (level Grammar.python (n + 1) (i + k)) (l :: ls) rest x) :
    Consumes (level Grammar.python (n + 1 + k) i) (l :: ls) rest x := by
  -- From the tightest level outwards, one level and one step of the bound at a time.
  induction k generalizing i with
  | zero => exact h
  | succ k ih =>
    have hsucc : i + (k + 1) = i + 1 + k := by omega
    obtain ⟨level, hl⟩ : ∃ level, Grammar.python.levels[i]? = some level :=
      ⟨_, List.getElem?_eq_getElem (show i < 14 by omega)⟩
    rw [hsucc] at hk hlead h
    have hnext := ih hk hlead (hq.mono (by omega)) h
    have hn : n + 1 + k = n + k + 1 := by omega
    have hn' : n + 1 + (k + 1) = n + k + 2 := by omega
    rw [hn] at hnext
    rw [hn']
    exact consumes_level hl (by omega) (hlead.of_level hl (by omega)) (hq.of_level hl) hnext

/-- No attribute, subscript or call stands behind an operand. -/
theorem consumes_members_nil (hq : Quiet g i rest) (x : Expr) :
    Consumes (members g (n + 1) x) [] rest x := by
  rw [members]
  refine consumes_eat_of_ne (hq _ (by simp [Grammar.followers])) ?_
  refine consumes_eat_of_ne (hq _ (by simp [Grammar.followers])) ?_
  refine consumes_check_of_ne (hq _ (by simp [Grammar.followers])) ?_
  rw [Bool.and_false]
  exact consumes_pure x rest

theorem consumes_operand (h : Consumes (primary g (n + 1)) ls rest x) (hq : Quiet g i rest) :
    Consumes (operand g (n + 2)) ls rest x := by
  rw [operand]
  exact h.andThen (consumes_members_nil hq x)

/-- No `**` stands behind an operand. -/
theorem consumes_power (h : Consumes (operand Grammar.python n) ls rest x)
    (hq : Quiet Grammar.python 13 rest) :
    Consumes (level Grammar.python (n + 1) 13) ls rest x := by
  rw [level]
  exact h.andThen (consumes_eat_of_ne (hq _ (by decide)) (consumes_pure x rest))

/-- No `if` stands behind an operand of the loosest level. -/
theorem consumes_choice (h : Consumes (level g n 0) ls rest x)
    (hif : rest.headD .stop ≠ .word (.name "if")) : Consumes (choice g (n + 1)) ls rest x := by
  rw [choice]
  refine h.andThen (consumes_check_of_ne hif ?_)
  rw [Bool.and_false]
  exact consumes_pure x rest

/-- No filter stands behind an expression. -/
theorem consumes_expression (h : Consumes (choice g (n + 1)) ls rest x)
    (hbar : rest.headD .stop ≠ .word (.symbol .bar)) :
    Consumes (expression g (n + 2)) ls rest x := by
  rw [expression]
  refine h.andThen ?_
  rw [filters]
  exact consumes_eat_of_ne hbar (consumes_pure x rest)

/-- What a level takes is taken as an expression, unless a word of a looser level stands in front
of it or anything goes on with it. -/
theorem Consumes.expression {l : Lexeme} (hi : i ≤ 13) (hl : Unled i l)
    (hq : Quiet Grammar.python 0 rest)
    (hif : rest.headD .stop ≠ .word (.name "if"))
    (hbar : rest.headD .stop ≠ .word (.symbol .bar))
    (h : Consumes (level Grammar.python (n + 1) i) (l :: ls) rest x) :
    Consumes (Parse.expression Grammar.python (n + 1 + i + 2)) (l :: ls) rest x := by
  rw [← Nat.zero_add i] at hi hl h
  exact consumes_expression (consumes_choice (consumes_levels hi hl hq h) hif) hbar

/-- Tokens that are read as an expression up to the end, with the bound for all of them, spell
it. -/
theorem spells_of_consumes {mode : Mode}
    (h : Consumes (Parse.expression mode.grammar
      ((mode.grammar.levels.length + 7) * (ls.length + 2))) ls [] x) : Spells mode ls x := by
  intro s hs
  have hlen : s.rest.length = ls.length := by
    rw [← hs, TokenStream.lexemes, List.length_map]
  have hdepth : s.depth mode.grammar =
      (mode.grammar.levels.length + 7) * (ls.length + 2) := by rw [TokenStream.depth, hlen]
  rw [← hdepth] at h
  exact h s (by simpa using hs)

/-- The bound for all tokens allows more than twenty steps a token. -/
theorem spells_of_expression
    (h : ∀ n, 20 * ls.length ≤ n → Consumes (Parse.expression Grammar.python n) ls [] x) :
    Spells .python ls x := by
  refine spells_of_consumes (h _ ?_)
  have hlevels : Mode.python.grammar.levels.length = 14 := rfl
  rw [hlevels]
  omega

end Parse

end TemplateEngine
