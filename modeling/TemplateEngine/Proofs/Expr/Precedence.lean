import Mathlib.Tactic.FinCases
import TemplateEngine.Proofs.Expr.Sentences
import TemplateEngine.Proofs.Expr.Texts

/-!
# Precedence

Which level of a grammar an infix operator belongs to (`Grammar.levelOf`), and the trees that the
levels allow (`Grammar.Grouped`): operators group from the left, but `**` from the right.  There is
no more than one such tree for a row of variables and operators (`Grammar.Grouped.eq_of_inorder`):
the loosest operator of the row, and of several the last one, is the one at the root.

What reading a row needs of a grammar is `Grammar.IsTable`, and the grammars of both dialects are of
that kind (`Mode.isTable`).
-/

namespace TemplateEngine

/-- The operators that stand between two operands. -/
def Level.infixes : Level → List (List Word × BinaryOp)
  | .between operators => operators
  | .power => [([.symbol .starStar], .pow)]
  | .negation | .signs _ => []

namespace Grammar

variable {g : Grammar}

/-- The infix operators of the level `i` and the tighter ones. -/
def infixes (g : Grammar) (i : Nat) : List (List Word × BinaryOp) :=
  (g.levels.drop i).flatMap Level.infixes

/-- The level that an operator belongs to. -/
def levelOf (g : Grammar) (op : BinaryOp) : Nat :=
  g.levels.findIdx fun l => l.infixes.any fun o => o.2 == op

/-- The level that an expression belongs to; operands are tighter than every operator. -/
def tightness (g : Grammar) : Expr → Nat
  | .binary op _ _ => g.levelOf op
  | _ => g.levels.length

end Grammar

/-- What a tree is in order: variables, and operators between them. -/
def Expr.inorder : Expr → List (BinaryOp ⊕ String)
  | .var name => [.inr name]
  | .binary op l r => l.inorder ++ .inl op :: r.inorder
  | _ => []

theorem Expr.inorder_var_ne {name : String} {op : BinaryOp} {l r : Expr} :
    (Expr.var name).inorder ≠ (Expr.binary op l r).inorder := by
  intro h
  have hmem : .inl op ∈ (Expr.var name).inorder := by
    rw [h]
    simp [inorder]
  simp [inorder] at hmem

namespace Grammar

variable {g : Grammar}

/-- The tree is grouped as the levels say.  Both operands of an operator are of its own level or a
tighter one, and the right one is tighter; but the left operand of `**` is a variable, and the right
one is a variable or a power again. -/
inductive Grouped (g : Grammar) : Expr → Prop where
  | var (name : String) : Grouped g (.var name)
  | left {op : BinaryOp} {l r : Expr} (hop : op ≠ .pow) (left : Grouped g l) (right : Grouped g r)
      (hleft : g.levelOf op ≤ g.tightness l) (hright : g.levelOf op < g.tightness r) :
      Grouped g (.binary op l r)
  | power {name : String} {r : Expr} (right : Grouped g r)
      (hright : (∃ y, r = .var y) ∨ ∃ a b, r = .binary .pow a b) :
      Grouped g (.binary .pow (.var name) r)

/-! ### One tree for a row -/

/-- No operator in a tree is looser than the tree. -/
theorem Grouped.tightness_le {t : Expr} (h : g.Grouped t) {op : BinaryOp}
    (hop : .inl op ∈ t.inorder) : g.tightness t ≤ g.levelOf op := by
  induction h with
  | var name => simp [Expr.inorder] at hop
  | left _ _ _ hleft hright ihl ihr =>
    rw [Expr.inorder, List.mem_append, List.mem_cons] at hop
    rcases hop with hop | hop | hop
    · exact hleft.trans (ihl hop)
    · cases hop
      exact le_rfl
    · exact hright.le.trans (ihr hop)
  | power _ hright ihr =>
    simp only [Expr.inorder, List.cons_append, List.nil_append, List.mem_cons, reduceCtorEq,
      false_or] at hop
    rcases hop with hop | hop
    · cases hop
      exact le_rfl
    · rcases hright with ⟨y, rfl⟩ | ⟨a, b, rfl⟩
      · simp [Expr.inorder] at hop
      · exact ihr hop

/-- Below `**` there is no other operator. -/
theorem Grouped.eq_pow {a b : Expr} (h : g.Grouped (.binary .pow a b)) {op : BinaryOp}
    (hop : .inl op ∈ (Expr.binary .pow a b).inorder) : op = .pow := by
  generalize ht : Expr.binary .pow a b = t at h hop
  induction h generalizing a b with
  | var => cases ht
  | left hne =>
    cases ht
    exact absurd rfl hne
  | power _ hright ihr =>
    cases ht
    simp only [Expr.inorder, List.cons_append, List.nil_append, List.mem_cons, reduceCtorEq,
      false_or] at hop
    rcases hop with hop | hop
    · cases hop
      rfl
    · rcases hright with ⟨y, rfl⟩ | ⟨c, d, rfl⟩
      · simp [Expr.inorder] at hop
      · exact ihr rfl hop

/-- The loosest operator of a row, the last one of its level, is at the root. -/
theorem Grouped.eq_of_append {op op' : BinaryOp} {l r l' r' : Expr}
    (hl : g.Grouped l) (hr' : g.Grouped r')
    (hleft : g.levelOf op ≤ g.tightness l) (hright' : g.levelOf op' < g.tightness r')
    {between : List (BinaryOp ⊕ String)} (hl' : l.inorder = l'.inorder ++ between)
    (hr : .inl op' :: r'.inorder = between ++ .inl op :: r.inorder) : between = [] := by
  cases between with
  | nil => rfl
  | cons c between =>
    obtain ⟨hc, htail⟩ := List.cons.inj hr
    cases hc
    have hop' : .inl op' ∈ l.inorder := by simp [hl']
    have hop : .inl op ∈ r'.inorder := by simp [htail]
    have hle := hleft.trans (hl.tightness_le hop')
    have hlt := hright'.trans_le (hr'.tightness_le hop)
    omega

/-- A row is grouped in one way only. -/
theorem Grouped.eq_of_inorder {t u : Expr} (ht : g.Grouped t) (hu : g.Grouped u)
    (h : t.inorder = u.inorder) : t = u := by
  induction ht generalizing u with
  | var name =>
    cases hu with
    | var => simpa [Expr.inorder] using h
    | left | power => exact absurd h Expr.inorder_var_ne
  | @left op l r hne hl hr hleft hright ihl ihr =>
    cases hu with
    | var => exact absurd h.symm Expr.inorder_var_ne
    | @left op' l' r' _ hl' hr' hleft' hright' =>
      rw [Expr.inorder, Expr.inorder] at h
      -- whichever root stands first in the row, nothing is between the two
      have hsplit : l.inorder = l'.inorder ∧ op = op' ∧ r.inorder = r'.inorder := by
        rcases List.append_eq_append_iff.mp h with ⟨between, hb, hb'⟩ | ⟨between, hb, hb'⟩
        · obtain rfl := eq_of_append hl' hr hleft' hright hb hb'
          obtain ⟨hop, hrest⟩ := List.cons.inj hb'
          exact ⟨by simpa using hb.symm, Sum.inl.inj hop, hrest⟩
        · obtain rfl := eq_of_append hl hr' hleft hright' hb hb'
          obtain ⟨hop, hrest⟩ := List.cons.inj hb'
          exact ⟨by simpa using hb, (Sum.inl.inj hop).symm, hrest.symm⟩
      obtain ⟨hl'', rfl, hr''⟩ := hsplit
      rw [ihl hl' hl'', ihr hr' hr'']
    | @power name r' hr' hshape =>
      have hop : .inl op ∈ (Expr.binary .pow (.var name) r').inorder := by
        rw [← h]
        simp [Expr.inorder]
      exact absurd ((Grouped.power hr' hshape).eq_pow hop) hne
  | @power name r hr hright ihr =>
    cases hu with
    | var => exact absurd h.symm Expr.inorder_var_ne
    | @left op' l' r' hne =>
      have hop : .inl op' ∈ (Expr.binary .pow (.var name) r).inorder := by
        rw [h]
        simp [Expr.inorder]
      exact absurd ((Grouped.power hr hright).eq_pow hop) hne
    | power hr' =>
      obtain ⟨rfl, hrest⟩ : name = _ ∧ r.inorder = _ := by simpa [Expr.inorder] using h
      rw [ihr hr' hrest]

/-! ### Grammars of operators -/

/-- The operators of a level and of the tighter ones. -/
theorem infixes_of_level {i : Nat} {l : Level} (hl : g.levels[i]? = some l) :
    g.infixes i = l.infixes ++ g.infixes (i + 1) := by
  rw [infixes, List.drop_eq_getElem?_toList_append, hl]
  rfl

/-- The name is read as a variable: it is no keyword and no other word of the grammar. -/
structure IsVariable (g : Grammar) (name : String) : Prop where
  identifier : IsIdentifier name
  keyword : g.keywords.lookup name = none
  free : g.reserved.contains name = false

/-- What reading a row of operators needs of a grammar. -/
structure IsTable (g : Grammar) : Prop where
  /-- An operator in front of a variable is found at its level. -/
  found {i : Nat} {operators : List (List Word × BinaryOp)} {o : List Word × BinaryOp}
    {name : String} (hl : g.levels[i]? = some (.between operators)) (ho : o ∈ operators)
    (hn : g.IsVariable name) (rest : List Lexeme) :
    operators.find? (fun o' =>
      Parse.spelledBy o'.1 (o.1.map .word ++ .word (.name name) :: rest)) = some o
  /-- Every operator is spelled by a word or more. -/
  spelled {i : Nat} {l : Level} {o : List Word × BinaryOp} (hl : g.levels[i]? = some l)
    (ho : o ∈ l.infixes) : o.1 ≠ []
  /-- No operand of a tighter level goes on with an operator. -/
  quiet {i : Nat} {l : Level} {o : List Word × BinaryOp} (hl : g.levels[i]? = some l)
    (ho : o ∈ l.infixes) : Quiet g (i + 1) (o.1.map .word)
  /-- No operator belongs to two levels. -/
  level {i : Nat} {l : Level} {o : List Word × BinaryOp} (hl : g.levels[i]? = some l)
    (ho : o ∈ l.infixes) : g.levelOf o.2 = i
  /-- `**` is the only operator that groups from the right. -/
  left {i : Nat} {operators : List (List Word × BinaryOp)} {o : List Word × BinaryOp}
    (hl : g.levels[i]? = some (.between operators)) (ho : o ∈ operators) : o.2 ≠ .pow
  /-- Where `not` is an operator it is not a variable. -/
  negation {i : Nat} (hl : g.levels[i]? = some .negation) : ¬ g.IsVariable "not"
  /-- `**` is on the last level, behind the signs. -/
  power {i : Nat} (hl : g.levels[i]? = some .power) :
    i + 1 = g.levels.length ∧ ∃ operators, g.levels[i - 1]? = some (.signs operators)

end Grammar

theorem Grammar.found_python {i : Nat} {operators : List (List Word × BinaryOp)}
    {o : List Word × BinaryOp} {name : String}
    (hl : Grammar.python.levels[i]? = some (.between operators)) (ho : o ∈ operators)
    (hn : Grammar.python.IsVariable name) (rest : List Lexeme) :
    operators.find? (fun o' =>
      Parse.spelledBy o'.1 (o.1.map .word ++ .word (.name name) :: rest)) = some o := by
  have hall : ∀ p ∈ Grammar.python.levels.zipIdx, ∀ o ∈ p.1.operators,
      o = (o.2.words, o.2) ∧ o.2.level = p.2 ∧ p.2 < 12 := by decide
  obtain ⟨hwords, hlevel, hlt⟩ := hall (.between operators, i)
    (List.mem_zipIdx_iff_getElem?.mpr hl) o ho
  obtain ⟨operators', hl', hfind, -⟩ := BinaryOp.of_level_lt (hlevel ▸ hlt)
  rw [hlevel, hl] at hl'
  cases hl'
  have hstart : (Lexeme.word (.name name)).isStart = true := by
    refine bne_iff_ne.mpr ?_
    rintro rfl
    exact absurd hn.free (by decide)
  have h := hfind (.word (.name name)) rest hstart
  rw [hwords]
  exact h

theorem Grammar.between_standard {l : Level} (h : l ∈ Grammar.standard.levels) :
    ∃ operators, l = .between operators := by
  have hall : ∀ l ∈ Grammar.standard.levels, ∃ operators, l = .between operators := by
    simp [Grammar.standard]
  exact hall l h

theorem Grammar.found_standard {i : Nat} {operators : List (List Word × BinaryOp)}
    {o : List Word × BinaryOp} (hl : Grammar.standard.levels[i]? = some (.between operators))
    (ho : o ∈ operators) (l : Lexeme) (rest : List Lexeme) :
    operators.find? (fun o' => Parse.spelledBy o'.1 (o.1.map .word ++ l :: rest)) = some o := by
  obtain ⟨hi, -⟩ := List.getElem?_eq_some_iff.mp hl
  have hi : i < 3 := hi
  interval_cases i <;> cases hl <;> fin_cases ho <;> rfl

/-- Both dialects have such a grammar. -/
theorem Mode.isTable (mode : Mode) : mode.grammar.IsTable := by
  have hinfixes : ∀ p ∈ mode.grammar.levels.zipIdx, ∀ o ∈ p.1.infixes, o.1 ≠ [] ∧
      Quiet mode.grammar (p.2 + 1) (o.1.map .word) ∧ mode.grammar.levelOf o.2 = p.2 := by
    cases mode <;> decide
  have hword {i : Nat} {l : Level} (hl : mode.grammar.levels[i]? = some l) :=
    hinfixes (l, i) (List.mem_zipIdx_iff_getElem?.mpr hl)
  exact {
    found := by
      cases mode with
      | python => exact Grammar.found_python
      | standard => exact fun hl ho _ => Grammar.found_standard hl ho _
    spelled := fun hl ho => (hword hl _ ho).1
    quiet := fun hl ho => (hword hl _ ho).2.1
    level := fun hl ho => (hword hl _ ho).2.2
    left := by
      have hall : ∀ l ∈ mode.grammar.levels, ∀ o ∈ l.operators, o.2 ≠ .pow := by
        cases mode <;> decide
      exact fun {_ _ _} hl ho => hall _ (List.mem_of_getElem? hl) _ ho
    negation := by
      intro i hl hnot
      cases mode with
      | python => exact absurd hnot.free (by decide)
      | standard =>
        obtain ⟨_, hbetween⟩ := Grammar.between_standard (List.mem_of_getElem? hl)
        cases hbetween
    power := by
      intro i hl
      cases mode with
      | python =>
        obtain rfl := eq_of_level_power hl
        exact ⟨rfl, _, rfl⟩
      | standard =>
        obtain ⟨_, hbetween⟩ := Grammar.between_standard (List.mem_of_getElem? hl)
        cases hbetween }

end TemplateEngine
