import TemplateEngine.Proofs.Expr.Printing
import TemplateEngine.Proofs.Expr.Precedence

/-!
# Rows of operators

A row of variables with infix operators between them is read as the one tree that its levels allow
(`Expr.parse_row`).

A level reads the row from a variable on (`Parse.RowTree`).  Up to the first operator of its own,
the row is one of the next level (`Parse.exists_split`); then its operators follow, with a row of
the next level behind each, and the tree grows to the left (`Parse.chainTree`).  So it goes from the
last level outwards (`Parse.hasTrees`), and only `**` is read the other way round, by
induction on the row itself (`Parse.rowTree_power`).
-/

namespace TemplateEngine

/-- An infix operator, as a grammar spells it, and the variable behind it. -/
structure Infix where
  operator : List Word × BinaryOp
  name : String

namespace Infix

/-- The words of an operator and of the variable behind it. -/
def words (s : Infix) : List Word := s.operator.1 ++ [.name s.name]

/-- The tokens of an operator and of the variable behind it. -/
def lexemes (s : Infix) : List Lexeme := s.words.map .word

theorem lexemes_eq (s : Infix) :
    s.lexemes = s.operator.1.map .word ++ [.word (.name s.name)] := by
  simp [lexemes, words]

theorem length_le_lexemes (row : List Infix) : row.length ≤ (row.flatMap lexemes).length := by
  induction row with
  | nil => simp
  | cons s row ih =>
    rw [List.flatMap_cons, List.length_append, List.length_cons]
    have hone : 1 ≤ s.lexemes.length := by simp [lexemes_eq]
    omega

/-- The operator and the variable as the reading of a tree lists them. -/
def reading (s : Infix) : List (BinaryOp ⊕ String) := [.inl s.operator.2, .inr s.name]

/-- The operator is of the level `i` or a tighter one, and a variable stands behind it. -/
structure Follows (g : Grammar) (i : Nat) (s : Infix) : Prop where
  operator : s.operator ∈ g.infixes i
  isVariable : g.IsVariable s.name

end Infix

namespace Parse

variable {g : Grammar} {i n : Nat} {x : String} {row : List Infix} {rest : List Lexeme}

/-- The tree of a row behind a variable: it is grouped by the level `i` and tighter ones, and the
level reads the row as this tree. -/
structure RowTree (g : Grammar) (i : Nat) (x : String) (row : List Infix) (t : Expr) : Prop where
  inorder : t.inorder = .inr x :: row.flatMap Infix.reading
  grouped : g.Grouped t
  tight : i ≤ g.tightness t
  reads (n : Nat) (hn : 2 * (g.levels.length - i) + 2 * row.length + 4 ≤ n) (rest : List Lexeme)
    (hq : Quiet g i rest) :
    Consumes (level g n i) (.word (.name x) :: row.flatMap Infix.lexemes) rest t

/-- A variable is an operand. -/
theorem consumes_variable (hx : g.IsVariable x) (hq : Quiet g i rest) :
    Consumes (operand g (n + 2)) [.word (.name x)] rest (.var x) := by
  refine consumes_operand ?_ hq
  change Consumes (advance >>= _) _ _ _
  refine consumes_advance fun offset => ?_
  simp only [nameExpr, hx.keyword, hx.free]
  exact consumes_pure _ rest

/-- A row over the levels from `i` on begins with what is tighter than the level `i`, up to the
first operator of that level. -/
theorem exists_split {l : Level} (hl : g.levels[i]? = some l)
    (hrow : ∀ s ∈ row, s.Follows g i) :
    ∃ inner more, row = inner ++ more ∧ (∀ s ∈ inner, s.Follows g (i + 1)) ∧
      (more = [] ∨ ∃ s more', more = s :: more' ∧ s.operator ∈ l.infixes) := by
  have hdrop := Grammar.infixes_of_level hl
  induction row with
  | nil => exact ⟨[], [], rfl, nofun, .inl rfl⟩
  | cons s row ih =>
    rw [List.forall_mem_cons] at hrow
    have hs := hrow.1.operator
    rw [hdrop, List.mem_append] at hs
    rcases hs with hs | hs
    · exact ⟨[], s :: row, rfl, nofun, .inr ⟨s, row, rfl, hs⟩⟩
    · obtain ⟨inner, more, rfl, hinner, hmore⟩ := ih hrow.2
      exact ⟨s :: inner, more, rfl, List.forall_mem_cons.mpr ⟨⟨hs, hrow.1.isVariable⟩, hinner⟩,
        hmore⟩

/-- What comes behind tighter operators does not go on with them. -/
theorem quiet_more (hg : g.IsTable) {l : Level} (hl : g.levels[i]? = some l) {more : List Infix}
    (hmore : more = [] ∨ ∃ s more', more = s :: more' ∧ s.operator ∈ l.infixes)
    (hq : Quiet g i rest) : Quiet g (i + 1) (more.flatMap Infix.lexemes ++ rest) := by
  rcases hmore with rfl | ⟨s, more', rfl, hs⟩
  · exact hq.mono (by omega)
  · have hquiet := hg.quiet hl hs
    obtain ⟨w, words, hw⟩ := List.exists_cons_of_ne_nil (hg.spelled hl hs)
    rw [hw] at hquiet
    simpa [Infix.lexemes_eq, hw] using quiet_cons.mpr (quiet_cons.mp hquiet)

/-! ### One level -/

/-- Behind the last level a row is a variable. -/
theorem rowTree_operand (hi : i = g.levels.length) (hx : g.IsVariable x)
    (hrow : ∀ s ∈ row, s.Follows g i) : ∃ t, RowTree g i x row t := by
  have hnone : g.infixes i = [] := by rw [Grammar.infixes, List.drop_eq_nil_of_le hi.ge]; rfl
  have hnil : row = [] := by
    refine List.eq_nil_iff_forall_not_mem.mpr fun s hs => ?_
    have ho := (hrow s hs).operator
    rw [hnone] at ho
    cases ho
  subst hnil
  refine ⟨.var x, rfl, .var x, hi.le, fun n hn rest hq => ?_⟩
  obtain ⟨n, rfl⟩ : ∃ m, n = m + 3 := ⟨n - 3, by omega⟩
  rw [level, List.getElem?_eq_none hi.ge]
  exact consumes_variable hx hq

/-- No sign and no `not` stands in front of a variable. -/
theorem consumes_unary {l : Level} {ls : List Lexeme} {t : Expr} (hg : g.IsTable)
    (hl : g.levels[i]? = some l) (hkind : l = .negation ∨ ∃ operators, l = .signs operators)
    (hx : g.IsVariable x) (h : Consumes (level g n (i + 1)) (.word (.name x) :: ls) rest t) :
    Consumes (level g (n + 1) i) (.word (.name x) :: ls) rest t := by
  rw [level, hl]
  rcases hkind with rfl | ⟨operators, rfl⟩
  · have hne : x ≠ "not" := by
      rintro rfl
      exact hg.negation hl hx
    exact consumes_eat_of_ne (by simpa using hne) h
  · have hnone : Consumes (sign? operators) [] (.word (.name x) :: ls ++ rest) none :=
      consumes_sign_none fun w hw => by
        obtain ⟨o, -, rfl⟩ := List.mem_map.mp hw
        simp
    exact hnone.bind h

/-- Every row over the levels from `i` on has a tree. -/
def HasTrees (g : Grammar) (i : Nat) : Prop :=
  ∀ x row, g.IsVariable x → (∀ s ∈ row, s.Follows g i) → ∃ t, RowTree g i x row t

/-- A level of signs or of `not` has no operator of a row. -/
theorem rowTree_unary {l : Level} (hg : g.IsTable) (hl : g.levels[i]? = some l)
    (hkind : l = .negation ∨ ∃ operators, l = .signs operators) (hnext : HasTrees g (i + 1))
    (hx : g.IsVariable x) (hrow : ∀ s ∈ row, s.Follows g i) : ∃ t, RowTree g i x row t := by
  have hinfixes : l.infixes = [] := by
    rcases hkind with rfl | ⟨operators, rfl⟩ <;> rfl
  have hnext' : ∀ s ∈ row, s.Follows g (i + 1) := fun s hs =>
    ⟨by simpa [Grammar.infixes_of_level hl, hinfixes] using (hrow s hs).operator,
      (hrow s hs).isVariable⟩
  obtain ⟨t, ht⟩ := hnext x row hx hnext'
  refine ⟨t, ht.inorder, ht.grouped, (Nat.le_succ i).trans ht.tight, fun n hn rest hq => ?_⟩
  have hi : i < g.levels.length := (List.getElem?_eq_some_iff.mp hl).1
  obtain ⟨n, rfl⟩ : ∃ m, n = m + 1 := ⟨n - 1, by omega⟩
  exact consumes_unary hg hl hkind hx (ht.reads n (by omega) rest (hq.mono (by omega)))

/-- The operators of a level behind a left operand, as the level reads them. -/
structure ChainTree (g : Grammar) (i : Nat) (operators : List (List Word × BinaryOp)) (left : Expr)
    (row : List Infix) (t : Expr) : Prop where
  inorder : t.inorder = left.inorder ++ row.flatMap Infix.reading
  grouped : g.Grouped t
  tight : i ≤ g.tightness t
  reads (n : Nat) (hn : 2 * (g.levels.length - i) + 2 * row.length + 2 ≤ n) (rest : List Lexeme)
    (hq : Quiet g i rest) : Consumes (chain g n i operators left) (row.flatMap Infix.lexemes) rest t

/-- A chain takes an operator of its level and the row of tighter ones behind it, and goes on. -/
theorem consumes_chain_cons {operators : List (List Word × BinaryOp)} {s : Infix}
    {inner more : List Infix} {left r t : Expr} (hg : g.IsTable)
    (hl : g.levels[i]? = some (.between operators)) (hs : s.operator ∈ operators)
    (hname : g.IsVariable s.name)
    (hright : Consumes (level g n (i + 1)) (.word (.name s.name) :: inner.flatMap Infix.lexemes)
      (more.flatMap Infix.lexemes ++ rest) r)
    (hmore : Consumes (chain g n i operators (.binary s.operator.2 left r))
      (more.flatMap Infix.lexemes) rest t) :
    Consumes (chain g (n + 1) i operators left) ((s :: (inner ++ more)).flatMap Infix.lexemes)
      rest t := by
  have hfound : Consumes (operator? operators) (s.operator.1.map .word)
      ((.word (.name s.name) :: inner.flatMap Infix.lexemes) ++ more.flatMap Infix.lexemes ++
        rest) (some s.operator.2) :=
    consumes_operator?_some (hg.found hl hs hname _)
  have hlex : (s :: (inner ++ more)).flatMap Infix.lexemes =
      s.operator.1.map .word ++ ((.word (.name s.name) :: inner.flatMap Infix.lexemes) ++
        more.flatMap Infix.lexemes) := by
    simp [Infix.lexemes_eq]
  rw [chain, hlex]
  exact hfound.bind (hright.bind hmore)

/-- The right operands are the rows of tighter operators, and the tree grows to the left. -/
theorem chainTree {operators : List (List Word × BinaryOp)} (hg : g.IsTable)
    (hl : g.levels[i]? = some (.between operators)) (hnext : HasTrees g (i + 1))
    (row : List Infix) (hrow : ∀ s ∈ row, s.Follows g i)
    (hhead : row = [] ∨ ∃ s more, row = s :: more ∧ s.operator ∈ operators)
    (left : Expr) (hleft : g.Grouped left) (htight : i ≤ g.tightness left) :
    ∃ t, ChainTree g i operators left row t := by
  have hi : i < g.levels.length := (List.getElem?_eq_some_iff.mp hl).1
  -- a link takes an operator and all the tighter ones behind it, so the induction is on the length
  induction hm : row.length using Nat.strong_induction_on generalizing row left with
  | _ m ih =>
    subst hm
    rcases hhead with rfl | ⟨s, behind, rfl, hs⟩
    · refine ⟨left, by simp, hleft, htight, fun n hn rest hq => ?_⟩
      obtain ⟨n, rfl⟩ : ∃ m, n = m + 1 := ⟨n - 1, by omega⟩
      exact consumes_chain_nil (find?_operators_eq_none (fun o ho => hg.spelled hl ho)
        (hq.of_level hl)) g left
    · rw [List.forall_mem_cons] at hrow
      obtain ⟨inner, more, rfl, hinner, hmore⟩ := exists_split hl hrow.2
      obtain ⟨r, hr⟩ := hnext s.name inner hrow.1.isVariable hinner
      have hlevel : g.levelOf s.operator.2 = i := hg.level hl hs
      have hgrouped : g.Grouped (.binary s.operator.2 left r) :=
        .left (hg.left hl hs) hleft hr.grouped (hlevel ▸ htight) (hlevel ▸ hr.tight)
      have hless : more.length < (s :: (inner ++ more)).length := by
        rw [List.length_cons, List.length_append]
        omega
      obtain ⟨t, ht⟩ := ih more.length hless more
        (fun s hs => hrow.2 s (List.mem_append_right _ hs)) hmore _ hgrouped hlevel.ge rfl
      refine ⟨t, ?_, ht.grouped, ht.tight, fun n hn rest hq => ?_⟩
      · rw [ht.inorder, Expr.inorder, hr.inorder]
        simp [Infix.reading]
      · rw [List.length_cons, List.length_append] at hn
        obtain ⟨n, rfl⟩ : ∃ m, n = m + 1 := ⟨n - 1, by omega⟩
        exact consumes_chain_cons hg hl hs hrow.1.isVariable
          (hr.reads n (by omega) _ (quiet_more hg hl hmore hq)) (ht.reads n (by omega) rest hq)

theorem rowTree_between {operators : List (List Word × BinaryOp)} (hg : g.IsTable)
    (hl : g.levels[i]? = some (.between operators)) (hnext : HasTrees g (i + 1))
    (hx : g.IsVariable x) (hrow : ∀ s ∈ row, s.Follows g i) : ∃ t, RowTree g i x row t := by
  have hi : i < g.levels.length := (List.getElem?_eq_some_iff.mp hl).1
  obtain ⟨inner, more, rfl, hinner, hmore⟩ := exists_split hl hrow
  obtain ⟨left, hleft⟩ := hnext x inner hx hinner
  obtain ⟨t, ht⟩ := chainTree hg hl hnext more
    (fun s hs => hrow s (List.mem_append_right _ hs)) hmore left hleft.grouped
    ((Nat.le_succ i).trans hleft.tight)
  refine ⟨t, ?_, ht.grouped, ht.tight, fun n hn rest hq => ?_⟩
  · rw [ht.inorder, hleft.inorder]
    simp
  · rw [List.length_append] at hn
    obtain ⟨n, rfl⟩ : ∃ m, n = m + 1 := ⟨n - 1, by omega⟩
    have hfirst := hleft.reads n (by omega) _ (quiet_more hg hl hmore hq)
    rw [level, hl, List.flatMap_append, ← List.cons_append]
    exact hfirst.bind (ht.reads n (by omega) rest hq)

/-- `**` groups from the right: its right operand is read from the level of the signs on, and no
sign stands there. -/
theorem rowTree_power (hg : g.IsTable) (hl : g.levels[i]? = some .power) (hx : g.IsVariable x)
    (hrow : ∀ s ∈ row, s.Follows g i) :
    ∃ t, RowTree g i x row t ∧ ((∃ y, t = .var y) ∨ ∃ a b, t = .binary .pow a b) := by
  obtain ⟨hlast, operators, hsigns⟩ := hg.power hl
  have hi : i ≠ 0 := by
    rintro rfl
    cases hl.symm.trans hsigns
  have hinfixes : g.infixes i = [([.symbol .starStar], .pow)] := by
    rw [Grammar.infixes_of_level hl, Grammar.infixes, List.drop_eq_nil_of_le hlast.ge]
    rfl
  induction row generalizing x with
  | nil =>
    have htight : i ≤ g.tightness (.var x) := (Nat.le_succ i).trans hlast.le
    refine ⟨.var x, ⟨rfl, .var x, htight, fun n hn rest hq => ?_⟩, .inl ⟨x, rfl⟩⟩
    obtain ⟨n, rfl⟩ : ∃ m, n = m + 3 := ⟨n - 3, by omega⟩
    rw [level, hl]
    refine (consumes_variable hx hq).andThen (consumes_eat_of_ne ?_ (consumes_pure _ rest))
    exact hq.of_level hl _ (by simp [Level.links])
  | cons s row ih =>
    rw [List.forall_mem_cons] at hrow
    obtain ⟨r, hr, hshape⟩ := ih hrow.1.isVariable hrow.2
    have hs : s.operator = ([.symbol .starStar], .pow) := by
      simpa [hinfixes] using hrow.1.operator
    have hpow : ([.symbol .starStar], BinaryOp.pow) ∈ Level.power.infixes := by simp [Level.infixes]
    refine ⟨.binary .pow (.var x) r, ⟨?_, .power hr.grouped hshape, (hg.level hl hpow).ge,
      fun n hn rest hq => ?_⟩, .inr ⟨_, _, rfl⟩⟩
    · simp [Expr.inorder, hr.inorder, Infix.reading, hs]
    · rw [List.length_cons] at hn
      obtain ⟨n, rfl⟩ : ∃ m, n = m + 4 := ⟨n - 4, by omega⟩
      -- the right operand is read one level further out, where it has no sign
      have hright := hr.reads (n + 2) (by omega) rest hq
      have hi' : i - 1 + 1 = i := by omega
      rw [← hi'] at hright
      have hsigned := consumes_unary hg hsigns (.inr ⟨_, rfl⟩) hrow.1.isVariable hright
      have hquiet := quiet_more hg hl (.inr ⟨s, row, rfl, by rw [hs]; exact hpow⟩) hq
      have hbase : Consumes (operand g (n + 3)) [.word (.name x)]
          ((s :: row).flatMap Infix.lexemes ++ rest) (.var x) := consumes_variable hx hquiet
      rw [level, hl]
      refine Consumes.bind hbase ?_
      rw [List.flatMap_cons, Infix.lexemes_eq, hs]
      exact consumes_eat (hsigned.andThen (consumes_pure _ rest))

/-- Every row has a tree at every level. -/
theorem hasTrees (hg : g.IsTable) (hi : i ≤ g.levels.length) : HasTrees g i := by
  induction hk : g.levels.length - i generalizing i with
  | zero => exact fun x row hx hrow => rowTree_operand (by omega) hx hrow
  | succ k ih =>
    intro x row hx hrow
    have hi : i < g.levels.length := by omega
    have hl : g.levels[i]? = some g.levels[i] := List.getElem?_eq_getElem hi
    have hnext : HasTrees g (i + 1) := ih (by omega) (by omega)
    generalize g.levels[i] = l at hl
    cases l with
    | between operators => exact rowTree_between hg hl hnext hx hrow
    | negation => exact rowTree_unary hg hl (.inl rfl) hnext hx hrow
    | signs operators => exact rowTree_unary hg hl (.inr ⟨_, rfl⟩) hnext hx hrow
    | power =>
      obtain ⟨t, ht, -⟩ := rowTree_power hg hl hx hrow
      exact ⟨t, ht⟩

end Parse

/-! ### Texts -/

/-- The words of a row of infix operators behind a variable. -/
def rowWords (x : String) (row : List Infix) : List Word := .name x :: row.flatMap Infix.words

/-- A row as it is written, with a blank between any two words. -/
def rowText (x : String) (row : List Infix) : String :=
  " ".intercalate ((rowWords x row).map Word.text)

/-- Words with blanks between them. -/
theorem Lexes.words_alone {words : List Word} (hw : ∀ w ∈ words, w.Printable) :
    Lexes (" ".intercalate (words.map Word.text)).toList (words.map .word) := by
  have hprintable : ∀ l ∈ words.map Lexeme.word, l.Printable := List.forall_mem_map.mpr hw
  have htext : (words.map Lexeme.word).map Lexeme.text = words.map Word.text := by
    rw [List.map_map]
    rfl
  have h := Lexes.of_printable hprintable
  rwa [Lexeme.printed, htext] at h

theorem Grammar.printable_of_mem_infixes (mode : Mode) :
    ∀ o ∈ mode.grammar.infixes 0, ∀ w ∈ o.1, w.Printable := by
  cases mode <;> decide

theorem lexes_rowText {mode : Mode} {x : String} {row : List Infix}
    (hx : mode.grammar.IsVariable x) (hrow : ∀ s ∈ row, s.Follows mode.grammar 0) :
    Lexes (rowText x row).toList ((rowWords x row).map .word) := by
  refine Lexes.words_alone fun w hw => ?_
  rcases List.mem_cons.mp hw with rfl | hw
  · exact hx.identifier
  · obtain ⟨s, hs, hw⟩ := List.mem_flatMap.mp hw
    rcases List.mem_append.mp hw with hw | hw
    · exact Grammar.printable_of_mem_infixes mode _ (hrow s hs).operator w hw
    · obtain rfl := List.mem_singleton.mp hw
      exact (hrow s hs).isVariable.identifier

/-- A row spells its tree. -/
theorem Parse.RowTree.spells {mode : Mode} {x : String} {row : List Infix} {t : Expr}
    (h : RowTree mode.grammar 0 x row t) : Spells mode ((rowWords x row).map .word) t := by
  have hlexemes : (rowWords x row).map .word = .word (.name x) :: row.flatMap Infix.lexemes := by
    rw [rowWords, List.map_cons, List.map_flatMap]
    rfl
  rw [hlexemes]
  refine spells_of_consumes ?_
  have hlen := Infix.length_le_lexemes row
  generalize hls : row.flatMap Infix.lexemes = ls at hlen ⊢
  -- a word more raises the bound by one step for every level and seven more
  have hbound : (mode.grammar.levels.length + 7) * (ls.length + 1 + 2) =
      (mode.grammar.levels.length + 7) * ls.length + (mode.grammar.levels.length + 7) * 3 :=
    Nat.mul_add _ ls.length 3
  have hmul : 7 * ls.length ≤ (mode.grammar.levels.length + 7) * ls.length :=
    Nat.mul_le_mul_right _ (Nat.le_add_left 7 _)
  obtain ⟨n, hn⟩ : ∃ n, (mode.grammar.levels.length + 7) * (ls.length + 1 + 2) = n + 3 :=
    ⟨_, (Nat.sub_add_cancel (by omega)).symm⟩
  rw [List.length_cons, hn]
  have hlevel := h.reads (n + 1) (by omega) [] (by simp [Quiet])
  rw [hls] at hlevel
  exact consumes_expression (consumes_choice hlevel (by simp)) (by simp)

/-- **Rows of operators are read by precedence**: a row of variables and infix operators of a
dialect is read as the one tree that lists it in order and is grouped as the levels of the dialect
say, however it is spaced. -/
theorem Expr.parse_row {mode : Mode} {x : String} {row : List Infix}
    (hx : mode.grammar.IsVariable x) (hrow : ∀ s ∈ row, s.Follows mode.grammar 0) :
    ∃ t, t.inorder = .inr x :: row.flatMap Infix.reading ∧ mode.grammar.Grouped t ∧
      (∀ u, mode.grammar.Grouped u → u.inorder = .inr x :: row.flatMap Infix.reading → u = t) ∧
      (∀ base, parse mode (rowText x row) base = .ok t) ∧
      ∀ source, Lexes source.toList ((rowWords x row).map .word) →
        ∀ base, parse mode source base = .ok t := by
  obtain ⟨t, ht⟩ := Parse.hasTrees mode.isTable (Nat.zero_le _) x row hx hrow
  have hparse : ∀ source, Lexes source.toList ((rowWords x row).map .word) →
      ∀ base, parse mode source base = .ok t := by
    intro source hlex base
    obtain ⟨ts, hts, hl⟩ := hlex base
    exact parse_eq_ok_iff.mpr ⟨ts, hts, hl ▸ ht.spells⟩
  exact ⟨t, ht.inorder, ht.grouped,
    fun u hu h => hu.eq_of_inorder ht.grouped (h.trans ht.inorder.symm),
    hparse _ (lexes_rowText hx hrow), hparse⟩

/-- `is not` is tighter than `not in`, and `**` groups from the right. -/
theorem Expr.parse_row_not_in :
    parse .python "a not in b ** c ** d is not e" 0 =
      .ok (.binary .notIn (.var "a") (.binary .isNot
        (.binary .pow (.var "b") (.binary .pow (.var "c") (.var "d"))) (.var "e"))) := by
  have hvar : ∀ name ∈ ["a", "b", "c", "d", "e"], Grammar.python.IsVariable name := by
    have hall : ∀ name ∈ ["a", "b", "c", "d", "e"], IsIdentifier name ∧
        Grammar.python.keywords.lookup name = none ∧
          Grammar.python.reserved.contains name = false := by decide
    exact fun name h => ⟨(hall name h).1, (hall name h).2.1, (hall name h).2.2⟩
  have hrow : ∀ s ∈ ([⟨Grammar.names ["not", "in"] .notIn, "b"⟩,
      ⟨Grammar.symbol .starStar .pow, "c"⟩, ⟨Grammar.symbol .starStar .pow, "d"⟩,
      ⟨Grammar.names ["is", "not"] .isNot, "e"⟩] : List Infix),
      s.Follows Mode.python.grammar 0 := by
    simp only [List.forall_mem_cons]
    exact ⟨⟨by decide, hvar "b" (by simp)⟩, ⟨by decide, hvar "c" (by simp)⟩,
      ⟨by decide, hvar "d" (by simp)⟩, ⟨by decide, hvar "e" (by simp)⟩, nofun⟩
  have hx : Mode.python.grammar.IsVariable "a" := hvar "a" (by simp)
  obtain ⟨t, -, -, hunique, hparse, -⟩ := parse_row hx hrow
  have hcd : Grammar.python.Grouped (.binary .pow (.var "c") (.var "d")) :=
    .power (.var "d") (.inl ⟨_, rfl⟩)
  have hbcd : Grammar.python.Grouped
      (.binary .pow (.var "b") (.binary .pow (.var "c") (.var "d"))) :=
    .power hcd (.inr ⟨_, _, rfl⟩)
  have hall : Grammar.python.Grouped (.binary .notIn (.var "a") (.binary .isNot
      (.binary .pow (.var "b") (.binary .pow (.var "c") (.var "d"))) (.var "e"))) :=
    .left (by decide) (.var "a") (.left (by decide) hbcd (.var "e") (by decide) (by decide))
      (by decide) (by decide)
  rw [hunique _ hall rfl]
  exact hparse 0

end TemplateEngine
