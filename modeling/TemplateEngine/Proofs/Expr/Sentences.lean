import TemplateEngine.Proofs.Expr.Operands

/-!
# Sentences of the python grammar

A *sentence* is read as an expression in front of a closing parenthesis and at the end (`Sentence`);
in parentheses it is an operand (`Operand.group`).  Phrases are sentences, and every production of
the grammar makes one of operands: a sign or a binary operator at the level that it belongs to, a
conditional, and a filter, which nothing but a closing parenthesis may stand behind.
-/

namespace TemplateEngine

/-- The words that spell the operator. -/
def BinaryOp.words : BinaryOp → List Word
  | .or => [.name "or"]
  | .and => [.name "and"]
  | .isIn => [.name "in"]
  | .notIn => [.name "not", .name "in"]
  | .is => [.name "is"]
  | .isNot => [.name "is", .name "not"]
  | .eq => [.symbol .eqEq]
  | .ne => [.symbol .bangEq]
  | .lt => [.symbol .lt]
  | .le => [.symbol .le]
  | .gt => [.symbol .gt]
  | .ge => [.symbol .ge]
  | .contains => [.name "contains"]
  | .bitOr => [.symbol .barBar]
  | .bitXor => [.symbol .caret]
  | .bitAnd => [.symbol .amp]
  | .shl => [.symbol .shl]
  | .shr => [.symbol .shr]
  | .add => [.symbol .plus]
  | .sub => [.symbol .minus]
  | .mul => [.symbol .star]
  | .div => [.symbol .slash]
  | .floorDiv => [.symbol .slashSlash]
  | .mod => [.symbol .percent]
  | .pow => [.symbol .starStar]

/-- The level of the python grammar that the operator belongs to; `contains` belongs to none. -/
def BinaryOp.level : BinaryOp → Nat
  | .or => 0
  | .and => 1
  | .isIn | .notIn => 3
  | .is | .isNot => 4
  | .eq | .ne | .lt | .le | .gt | .ge => 5
  | .bitOr => 6
  | .bitXor => 7
  | .bitAnd => 8
  | .shl | .shr => 9
  | .add | .sub => 10
  | .mul | .div | .floorDiv | .mod => 11
  | .pow => 13
  | .contains => 14

/-- The word that spells the operator. -/
def UnaryOp.word : UnaryOp → Word
  | .not => .name "not"
  | .neg => .symbol .minus
  | .pos => .symbol .plus
  | .invert => .symbol .tilde

/-- The words of an operator are found at its level, and they go on with no operand of the next
level. -/
theorem BinaryOp.of_level_lt {op : BinaryOp} (h : op.level < 12) :
    ∃ operators, Grammar.python.levels[op.level]? = some (.between operators) ∧
      (∀ l more, l.isStart = true → operators.find? (fun o =>
        Parse.spelledBy o.1 (op.words.map .word ++ l :: more)) = some (op.words, op)) ∧
      ∀ more, Quiet Grammar.python (op.level + 1) (op.words.map .word ++ more) := by
  cases op
  case is =>
    refine ⟨_, rfl, fun l more hl => ?_, fun _ => quiet_cons.mpr (by decide)⟩
    -- `is not` is tried first, but no operand begins with `not`
    have hnot : (Lexeme.word (.name "not") == l) = false := by
      refine beq_eq_false_iff_ne.mpr ?_
      rintro rfl
      cases hl
    simp [Parse.spelledBy, words, List.isPrefixOf, hnot, Grammar.names]
  case pow | contains => exact absurd h (by decide)
  all_goals exact ⟨_, rfl, fun _ _ _ => rfl, fun _ => quiet_cons.mpr (by decide)⟩

/-- Nothing, or tokens that begin with a closing parenthesis. -/
def Halts (ls : List Lexeme) : Prop := ∀ l ∈ ls.head?, l = .word (.symbol .rparen)

theorem halts_nil : Halts [] := by simp [Halts]

theorem halts_rparen (ls : List Lexeme) : Halts (.word (.symbol .rparen) :: ls) := by simp [Halts]

theorem Halts.ends {ls : List Lexeme} (h : Halts ls) : Ends ls := fun l hl => h l hl ▸ rfl

theorem Halts.headD_ne {ls : List Lexeme} (h : Halts ls) {w : Word} (hw : w ≠ .symbol .rparen) :
    ls.headD .stop ≠ .word w := by
  cases ls with
  | nil => exact nofun
  | cons l ls =>
    rw [List.headD_cons, h l rfl]
    simpa using hw.symm

/-- Tokens that are read as an expression in front of a closing parenthesis and at the end. -/
structure Sentence (ls : List Lexeme) (x : Expr) : Prop where
  begins : ∃ l more, ls = l :: more ∧ l ≠ .word (.symbol .rparen)
  reads (n : Nat) (h : 20 * ls.length ≤ n) (rest : List Lexeme) (hr : Halts rest) :
    Parse.Consumes (Parse.expression Grammar.python n) ls rest x

open Parse

/-! ### Operands -/

namespace Operand

variable {ls rest : List Lexeme} {x : Expr} {n : Nat}

/-- A sentence in parentheses. -/
theorem group (h : Sentence ls x) :
    Operand (.word (.symbol .lparen) :: (ls ++ [.word (.symbol .rparen)])) x := by
  refine ⟨⟨_, _, rfl, rfl, by simp⟩, fun n hn rest => ?_⟩
  obtain ⟨l, more, rfl, hl⟩ := h.begins
  obtain ⟨m, rfl⟩ : ∃ m, n = m + 1 := ⟨n - 1, by simp at hn; omega⟩
  simp only [List.length_cons, List.length_append, List.length_nil] at hn
  change Consumes (advance >>= _) _ _ _
  refine consumes_advance fun offset => ?_
  change Consumes (Parse.group Grammar.python (m + 1)) _ _ _
  rw [Parse.group]
  refine consumes_check_of_ne hl ?_
  refine (h.reads m (by simp; omega) _ (halts_rparen rest)).bind ?_
  refine consumes_check_of_ne (by simp) ?_
  exact consumes_check_of_ne (by simp) (consumes_expect (consumes_pure x rest))

end Operand

/-! ### Sentences -/

namespace Sentence

variable {ls ms rs rest : List Lexeme} {l : Lexeme} {x y z : Expr}

theorem of_phrase (h : Phrase ls x) : Sentence ls x := by
  obtain ⟨l, hl, hs⟩ := h.begins
  cases ls with
  | nil => cases hl
  | cons m ls =>
    cases hl
    refine ⟨⟨_, _, rfl, ?_⟩, fun n hn rest hr => h.consumes hn hr.ends⟩
    rintro rfl
    cases hs

/-- A sentence spells its expression. -/
theorem spells (h : Sentence ls x) : Spells .python ls x :=
  spells_of_expression fun n hn => h.reads n hn [] halts_nil

/-! ### Signs and binary operators -/

/-- A sentence that is read from the level `i` on. -/
theorem of_level {i : Nat} (hi : i ≤ 13) (hl : Unled i l) (hne : l ≠ .word (.symbol .rparen))
    (h : ∀ n, 20 * ls.length + 17 ≤ n + i →
      Takes (level Grammar.python (n + 1) i) (l :: ls) x) : Sentence (l :: ls) x := by
  refine ⟨⟨l, ls, rfl, hne⟩, fun n hn rest hr => ?_⟩
  rw [List.length_cons] at hn
  obtain ⟨m, rfl⟩ : ∃ m, n = m + 1 + i + 2 := ⟨n - 3 - i, by omega⟩
  exact takes_iff.mp (takes_expression hi hl (h m (by omega))) rest hr.ends

theorem not (h : Operand ls x) : Sentence (.word (.name "not") :: ls) (.unary .not x) := by
  refine of_level (i := 2) (by decide) (by decide) (by simp) fun n hn =>
    takes_iff.mpr fun rest hr => ?_
  obtain ⟨m, rfl⟩ : ∃ m, n = m + 3 + 11 := ⟨n - 14, by omega⟩
  have hx := h.level (j := 2) (k := 11) rfl (n := m) (by omega)
    ((quiet_of_ends hr).mono (Nat.zero_le 2))
  rw [level]
  exact consumes_eat (hx.andThen (consumes_pure _ rest))

theorem sign {s : Symbol} {op : UnaryOp}
    (hs : [(Symbol.plus, UnaryOp.pos), (.minus, .neg), (.tilde, .invert)].find? (·.1 == s) =
      some (s, op)) (hl : Unled 12 (.word (.symbol s))) (hne : s ≠ .rparen) (h : Operand ls x) :
    Sentence (.word (.symbol s) :: ls) (.unary op x) := by
  refine of_level (i := 12) (by decide) hl (by simpa using hne) fun n hn => ?_
  obtain ⟨m, rfl⟩ : ∃ m, n = m + 4 := ⟨n - 4, by omega⟩
  exact h.takes_signed hs (by omega)

/-- The word in front of an operand. -/
theorem unary (op : UnaryOp) (h : Operand ls x) : Sentence (.word op.word :: ls) (.unary op x) := by
  cases op with
  | not => exact .not h
  | neg => exact sign rfl (by decide) (by decide) h
  | pos => exact sign rfl (by decide) (by decide) h
  | invert => exact sign rfl (by decide) (by decide) h

/-- An operator of a level between two operands. -/
theorem between {op : BinaryOp} {words : List Word} {operators : List (List Word × BinaryOp)}
    {i : Nat} (hi : i < 12) (hl : Grammar.python.levels[i]? = some (.between operators))
    (hop : ∀ l more, l.isStart = true →
      operators.find? (fun o => spelledBy o.1 (words.map .word ++ l :: more)) = some (words, op))
    (hq : ∀ more, Quiet Grammar.python (i + 1) (words.map .word ++ more)) (hx : Operand ls x)
    (hy : Operand ms y) : Sentence (ls ++ (words.map .word ++ ms)) (.binary op x y) := by
  obtain ⟨l, more, hls, hlead, hne⟩ := hx.unled
  obtain ⟨r, rmore, hms, hstart, -⟩ := hy.begins
  have htotal : (ls ++ (words.map Lexeme.word ++ ms)) =
      l :: (more ++ (words.map .word ++ ms)) := by rw [hls, List.cons_append]
  have hlen : ls.length = more.length + 1 := by rw [hls, List.length_cons]
  rw [htotal]
  refine of_level hi.le.step (hlead.mono hi.le.step) hne fun n hn =>
    takes_iff.mpr fun rest hr => ?_
  rw [← htotal]
  simp only [List.length_append] at hn
  obtain ⟨m, rfl⟩ : ∃ m, n = m + 1 + 3 + (12 - i) := ⟨n - 4 - (12 - i), by omega⟩
  have hend : Quiet Grammar.python (i + 1) rest := (quiet_of_ends hr).mono (Nat.zero_le _)
  -- The left operand in front of the operator, and the right one in front of the end.
  have hleft := hx.level (j := i + 1) (k := 12 - i) (by omega) (n := m + 1) (by omega)
    (hq (ms ++ rest))
  have hright := hy.level (j := i + 1) (k := 12 - i) (by omega) (n := m) (by omega) hend
  have hnone := find?_operators_eq_none (ne_nil_of_mem_operators hl)
    ((quiet_of_ends hr).mono (Nat.zero_le i) |>.of_level hl)
  have hsome : Consumes (operator? operators) (words.map .word) (ms ++ rest) (some op) :=
    consumes_operator?_some (by rw [hms]; exact hop r _ hstart)
  have hn1 : m + 1 + 3 + (12 - i) = m + 3 + (12 - i) + 1 := by omega
  have hn2 : m + 3 + (12 - i) = m + 2 + (12 - i) + 1 := by omega
  rw [level, hl]
  refine Consumes.bind (by simpa [List.append_assoc] using hleft) ?_
  rw [hn1, chain]
  refine hsome.bind (hright.andThen ?_)
  rw [hn2]
  exact consumes_chain_nil hnone _ _

/-- `**` between two operands, of which the right one may have a sign. -/
theorem power (hx : Operand ls x) (hy : Operand ms y) :
    Sentence (ls ++ .word (.symbol .starStar) :: ms) (.binary .pow x y) := by
  obtain ⟨l, more, rfl, hlead, hne⟩ := hx.unled
  rw [List.cons_append]
  refine of_level le_rfl hlead hne fun n hn => takes_iff.mpr fun rest hr => ?_
  rw [← List.cons_append]
  simp only [List.length_append, List.length_cons] at hn
  obtain ⟨m, rfl⟩ : ∃ m, n = m + 3 + 1 := ⟨n - 4, by omega⟩
  have hbase : Consumes (operand Grammar.python (m + 4)) (l :: more)
      (.word (.symbol .starStar) :: (ms ++ rest)) x :=
    consumes_operand (i := 14) (hx.reads _ (by simp; omega) _) (quiet_cons.mpr (by decide))
  have hright := hy.level (j := 12) (k := 1) rfl (n := m) (by omega)
    ((quiet_of_ends hr).mono (Nat.zero_le 12))
  rw [level]
  exact hbase.bind (consumes_eat (hright.andThen (consumes_pure _ rest)))

/-- A binary operator between two operands. -/
theorem binary {op : BinaryOp} (hop : op ≠ .contains) (hx : Operand ls x) (hy : Operand ms y) :
    Sentence (ls ++ (op.words.map .word ++ ms)) (.binary op x y) := by
  by_cases hpow : op = .pow
  · subst hpow
    exact power hx hy
  · have hlt : op.level < 12 := by cases op <;> first | decide | contradiction
    obtain ⟨operators, hl, hfind, hq⟩ := BinaryOp.of_level_lt hlt
    exact between hlt hl hfind hq hx hy

/-! ### Conditionals and filters -/

/-- `yes if cond else no` -/
theorem ternary (hyes : Operand ls y) (hcond : Operand ms x) (hno : Operand rs z) :
    Sentence (ls ++ .word (.name "if") :: (ms ++ .word (.name "else") :: rs))
      (.ternary x y z) := by
  obtain ⟨l, more, hls, -, hne⟩ := hyes.unled
  refine ⟨⟨l, _, by rw [hls, List.cons_append], hne⟩, fun n hn rest hr => ?_⟩
  simp only [List.length_append, List.length_cons] at hn
  obtain ⟨m, rfl⟩ : ∃ m, n = m + 3 + 13 + 3 := ⟨n - 19, by omega⟩
  -- The first two operands stand in front of a word, the last one in front of the end.
  have hyes : Consumes (level Grammar.python (m + 1 + 3 + 13) 0) ls
      (.word (.name "if") :: (ms ++ .word (.name "else") :: rs) ++ rest) y :=
    hyes.level rfl (by omega) (quiet_cons.mpr (by decide))
  have hcond : Consumes (level Grammar.python (m + 1 + 3 + 13) 0) ms
      (.word (.name "else") :: rs ++ rest) x :=
    hcond.level rfl (by omega) (quiet_cons.mpr (by decide))
  have hno : Consumes (level Grammar.python (m + 3 + 13) 0) rs rest z :=
    hno.level rfl (by omega) (quiet_of_ends hr.ends)
  refine consumes_expression ?_ (hr.headD_ne (by simp))
  rw [choice]
  refine hyes.bind (consumes_check rfl (consumes_tail (hcond.bind (consumes_expect ?_))))
  exact (consumes_choice hno (hr.headD_ne (by simp))).andThen (consumes_pure _ rest)

theorem consumes_filterName (name : String) :
    Consumes filterName [.word (.name name)] rest name := by
  refine consumes_peek fun l offset hl => ?_
  cases hl
  exact consumes_tail (consumes_pure name rest)

/-- An operand, `|` and the name of a filter, with what is read behind it as its arguments. -/
theorem of_arguments {xs : List Expr} (hx : Operand ls x) (name : String)
    (h : ∀ n rest, 20 * ms.length ≤ n → Halts rest →
      Consumes (arguments Grammar.python (n + 3)) ms rest xs) :
    Sentence (ls ++ .word (.symbol .bar) :: .word (.name name) :: ms) (.filter x name xs) := by
  obtain ⟨l, more, hls, -, hne⟩ := hx.unled
  refine ⟨⟨l, _, by rw [hls, List.cons_append], hne⟩, fun n hn rest hr => ?_⟩
  simp only [List.length_append, List.length_cons] at hn
  obtain ⟨m, rfl⟩ : ∃ m, n = m + 3 + 13 + 2 := ⟨n - 18, by omega⟩
  have hx : Consumes (level Grammar.python (m + 3 + 13) 0) ls
      (.word (.symbol .bar) :: .word (.name name) :: ms ++ rest) x :=
    hx.level rfl (by omega) (quiet_cons.mpr (by decide))
  rw [expression]
  refine (consumes_choice hx (by simp)).bind ?_
  rw [filters]
  refine consumes_eat ((consumes_filterName name).bind ?_)
  refine (h (m + 13) rest (by omega) hr).andThen ?_
  rw [filters]
  exact consumes_eat_of_ne (hr.headD_ne (by simp)) (consumes_pure _ rest)

/-- A filter without arguments; neither a colon nor a parenthesis comes next. -/
theorem filter (hx : Operand ls x) (name : String) :
    Sentence (ls ++ [.word (.symbol .bar), .word (.name name)]) (.filter x name []) := by
  refine of_arguments hx name fun n rest _ hr => ?_
  have hopen : rest.headD .stop ≠ .word (.symbol .lparen) := hr.headD_ne (by simp)
  rw [arguments]
  exact consumes_eat_of_ne (hr.headD_ne (by simp)) (consumes_eat_of_ne hopen (consumes_pure _ rest))

theorem filter_call {parts : List (List Lexeme)} {xs : List Expr} (hx : Operand ls x)
    (name : String) (h : List.Forall₂ Phrase parts xs) :
    Sentence (ls ++ .word (.symbol .bar) :: .word (.name name) :: bracketed .lparen .rparen parts)
      (.filter x name xs) := by
  refine of_arguments hx name fun n rest hn hr => ?_
  simp only [bracketed, List.length_append, List.length_cons, List.length_nil] at hn
  rw [arguments, bracketed]
  refine consumes_eat_of_ne (by simp) (consumes_eat ?_)
  exact takes_iff.mp (Phrase.takes_sequence .rparen (by decide) h (n + 2) (by omega)) rest hr.ends

end Sentence

end TemplateEngine
