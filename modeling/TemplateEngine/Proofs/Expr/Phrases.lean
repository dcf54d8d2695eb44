import Mathlib.Data.List.Forall2
import TemplateEngine.Proofs.Expr.Levels

/-!
# Phrases of the python grammar

In front of a comma, a colon, a closing bracket or the end, no operator, filter, member or call
goes on with an expression.  So a reader that takes an operand there takes a whole expression
(`Parse.takes_expression`), and lists, tuples, sets and dicts are read part by part.  A *phrase*
is a row of tokens that is read as an expression in front of all of these, with a bound on nesting
that grows with its length (`Phrase`); containers of phrases are phrases, and a phrase spells its
expression (`Phrase.spells`).
-/

namespace TemplateEngine

/-- A comma, a colon or a closing bracket. -/
def Lexeme.isEnd : Lexeme → Bool
  | .word (.symbol s) => [.comma, .colon, .rparen, .rbracket, .rbrace].contains s
  | _ => false

/-- Nothing, or tokens that begin with an end. -/
def Ends (ls : List Lexeme) : Prop := ∀ l ∈ ls.head?, l.isEnd = true

theorem ends_nil : Ends [] := by simp [Ends]

theorem ends_cons {l : Lexeme} {ls : List Lexeme} : Ends (l :: ls) ↔ l.isEnd = true := by
  simp [Ends]

theorem Ends.append {ls ms : List Lexeme} (hl : Ends ls) (hm : Ends ms) : Ends (ls ++ ms) := by
  cases ls with
  | nil => exact hm
  | cons l ls => exact ends_cons.mpr (ends_cons.mp hl)

/-- In front of an end, the tokens do not begin with the word. -/
def Avoids (w : Word) (ls : List Lexeme) : Prop :=
  ∀ rest, Ends rest → (ls ++ rest).headD .stop ≠ .word w

theorem avoids_nil {w : Word} (h : (Lexeme.word w).isEnd = false) : Avoids w [] := by
  rintro (_ | ⟨l, rest⟩) hr
  · exact nofun
  · rintro rfl
    rw [ends_cons.mp hr] at h
    cases h

theorem avoids_cons {w : Word} {l : Lexeme} {ls : List Lexeme} (h : l ≠ .word w) :
    Avoids w (l :: ls) :=
  fun _ _ => h

theorem quiet_of_ends {rest : List Lexeme} (h : Ends rest) : Quiet Grammar.python 0 rest := by
  have hends : ∀ w ∈ Grammar.python.followers 0, (Lexeme.word w).isEnd = false := by decide
  exact fun w hw => avoids_nil (hends w hw) rest h

namespace Parse

variable {α β : Type}

/-! ### Readers in front of an end -/

/-- In front of an end, the reader takes these tokens and gives `a`. -/
def Takes (p : Parse α) (ls : List Lexeme) (a : α) : Prop :=
  ∀ s rest, Ends rest → s.lexemes = ls ++ rest → ∃ t, p s = .ok (a, t) ∧ t.lexemes = rest

theorem takes_iff {p : Parse α} {ls : List Lexeme} {a : α} :
    Takes p ls a ↔ ∀ rest, Ends rest → Consumes p ls rest a :=
  ⟨fun h rest hr s hs => h s rest hr hs, fun h s rest hr hs => h rest hr s hs⟩

theorem takes_pure (a : α) : Takes (pure a) [] a := takes_iff.mpr fun _ _ => consumes_pure a _

section
variable {p : Parse α} {q : Parse β} {f : α → Parse β} {ls ms : List Lexeme} {l : Lexeme}
  {w : Word} {a : α} {b : β}

/-- A reader, and behind an end a second one. -/
theorem Takes.bind (hp : Takes p ls a) (hm : Ends ms) (hf : Takes (f a) ms b) :
    Takes (p >>= f) (ls ++ ms) b :=
  takes_iff.mpr fun rest hr =>
    (takes_iff.mp hp _ (hm.append hr)).bind (takes_iff.mp hf rest hr)

theorem Takes.andThen (hp : Takes p ls a) (hf : Takes (f a) [] b) : Takes (p >>= f) ls b := by
  simpa using hp.bind ends_nil hf

theorem takes_tail (h : Takes q ls b) :
    Takes (modify TokenStream.tail >>= fun _ => q) (l :: ls) b :=
  takes_iff.mpr fun rest hr => consumes_tail (takes_iff.mp h rest hr)

theorem takes_advance {f : Token → Parse β} (h : ∀ offset, Takes (f ⟨l, offset⟩) ls b) :
    Takes (advance >>= f) (l :: ls) b :=
  takes_iff.mpr fun rest hr => consumes_advance fun offset => takes_iff.mp (h offset) rest hr

/-- A word that comes next. -/
theorem takes_check {f : Bool → Parse β} (h : Takes (f true) (.word w :: ls) b) :
    Takes (check w >>= f) (.word w :: ls) b :=
  takes_iff.mpr fun rest hr => consumes_check rfl (takes_iff.mp h rest hr)

/-- A word that does not come next. -/
theorem takes_check_of_avoids {f : Bool → Parse β} (hw : Avoids w ls)
    (h : Takes (f false) ls b) : Takes (check w >>= f) ls b :=
  takes_iff.mpr fun rest hr => consumes_check_of_ne (hw rest hr) (takes_iff.mp h rest hr)

theorem takes_eat {f : Bool → Parse β} (h : Takes (f true) ls b) :
    Takes (eat w >>= f) (.word w :: ls) b :=
  takes_iff.mpr fun rest hr => consumes_eat (takes_iff.mp h rest hr)

theorem takes_eat_of_avoids {f : Bool → Parse β} (hw : Avoids w ls)
    (h : Takes (f false) ls b) : Takes (eat w >>= f) ls b :=
  takes_iff.mpr fun rest hr => consumes_eat_of_ne (hw rest hr) (takes_iff.mp h rest hr)

theorem takes_expect {f : Unit → Parse β} (h : Takes (f ()) ls b) :
    Takes (expect w >>= f) (.word w :: ls) b :=
  takes_iff.mpr fun rest hr => consumes_expect (takes_iff.mp h rest hr)

end

/-! ### From levels to expressions -/

section
variable {ls : List Lexeme} {l : Lexeme} {x : Expr} {n i : Nat}

theorem takes_operand (h : Takes (primary Grammar.python (n + 1)) ls x) :
    Takes (operand Grammar.python (n + 2)) ls x :=
  takes_iff.mpr fun rest hr => consumes_operand (takes_iff.mp h rest hr) (quiet_of_ends hr)

theorem takes_power (h : Takes (operand Grammar.python n) ls x) :
    Takes (level Grammar.python (n + 1) 13) ls x :=
  takes_iff.mpr fun rest hr =>
    consumes_power (takes_iff.mp h rest hr) ((quiet_of_ends hr).mono (Nat.zero_le 13))

/-- What a level takes is taken as an expression, unless its first token leads a looser level. -/
theorem takes_expression (hi : i ≤ 13) (hl : Unled i l)
    (h : Takes (level Grammar.python (n + 1) i) (l :: ls) x) :
    Takes (expression Grammar.python (n + 1 + i + 2)) (l :: ls) x :=
  takes_iff.mpr fun rest hr => (takes_iff.mp h rest hr).expression hi hl (quiet_of_ends hr)
    (avoids_nil rfl rest hr) (avoids_nil rfl rest hr)

end

end Parse

/-! ### Phrases -/

/-- The token begins a phrase: a number, a string, a name other than `not`, a minus or an opening
bracket. -/
def Lexeme.isStart : Lexeme → Bool
  | .int _ | .float _ | .str _ => true
  | .word (.name s) => s != "not"
  | .word (.symbol s) => [.minus, .lparen, .lbracket, .lbrace].contains s
  | .stop => false

/-- A start other than a minus is no sign and no `not`. -/
theorem unled_of_isStart {l : Lexeme} (hl : l.isStart = true) (hne : l ≠ .word (.symbol .minus)) :
    Unled 13 l := by
  have hminus : ∀ w ∈ (Grammar.python.levels.take 13).flatMap Level.leads,
      (Lexeme.word w).isStart = true → w = .symbol .minus := by decide
  rintro w hw rfl
  exact hne (hminus w hw hl ▸ rfl)

/-- Tokens that are read as an expression in front of every end. -/
structure Phrase (ls : List Lexeme) (x : Expr) : Prop where
  begins : ∃ l ∈ ls.head?, l.isStart = true
  takes (n : Nat) (h : 20 * ls.length ≤ n) : Parse.Takes (Parse.expression Grammar.python n) ls x

/-- Tokens that are read as an entry of a dict. -/
def Phrase.Entry (ls : List Lexeme) (e : Expr × Expr) : Prop :=
  ∃ ks vs, ls = ks ++ .word (.symbol .colon) :: vs ∧ Phrase ks e.1 ∧ Phrase vs e.2

/-- Parts with commas between them. -/
def separated (parts : List (List Lexeme)) : List Lexeme :=
  [.word (.symbol .comma)].intercalate parts

/-- The parts behind a part, and the comma in front of them. -/
def behind : List (List Lexeme) → List Lexeme
  | [] => []
  | ls :: parts => .word (.symbol .comma) :: separated (ls :: parts)

/-- Parts with commas between them, in brackets. -/
def bracketed (opener closer : Symbol) (parts : List (List Lexeme)) : List Lexeme :=
  .word (.symbol opener) :: (separated parts ++ [.word (.symbol closer)])

theorem separated_cons (ls : List Lexeme) (parts : List (List Lexeme)) :
    separated (ls :: parts) = ls ++ behind parts := by
  cases parts with
  | nil => simp [separated, behind]
  | cons ms parts => simp [separated, behind]

theorem ends_behind (parts : List (List Lexeme)) {ls : List Lexeme} (h : Ends ls) :
    Ends (behind parts ++ ls) := by
  cases parts with
  | nil => exact h
  | cons ms parts => exact ends_cons.mpr rfl

namespace Phrase

open Parse

variable {l : Lexeme} {ls : List Lexeme} {x : Expr} {xs : List Expr} {parts : List (List Lexeme)}

theorem headD_ne (h : Phrase ls x) {w : Word} (hw : (Lexeme.word w).isStart = false)
    (rest : List Lexeme) : (ls ++ rest).headD .stop ≠ .word w := by
  obtain ⟨l, hl, hs⟩ := h.begins
  cases ls with
  | nil => cases hl
  | cons m ls =>
    cases hl
    rw [List.cons_append, List.headD_cons]
    rintro rfl
    rw [hw] at hs
    cases hs

theorem headD_append_ne (h : Phrase ls x) {w : Word} (hw : (Lexeme.word w).isStart = false)
    (ms rest : List Lexeme) : (ls ++ ms ++ rest).headD .stop ≠ .word w := by
  rw [List.append_assoc]
  exact h.headD_ne hw (ms ++ rest)

theorem avoids (h : Phrase ls x) {w : Word} (hw : (Lexeme.word w).isStart = false)
    (ms : List Lexeme) : Avoids w (ls ++ ms) :=
  fun rest _ => h.headD_append_ne hw ms rest

theorem consumes (h : Phrase ls x) {n : Nat} (hn : 20 * ls.length ≤ n) {rest : List Lexeme}
    (hr : Ends rest) : Consumes (expression Grammar.python n) ls rest x :=
  takes_iff.mp (h.takes n hn) rest hr

/-- A phrase that is an operand. -/
theorem of_operand (hl : l.isStart = true) (hne : l ≠ .word (.symbol .minus))
    (h : ∀ n, 20 * ls.length ≤ n → Takes (operand Grammar.python (n + 3)) (l :: ls) x) :
    Phrase (l :: ls) x := by
  refine ⟨⟨l, rfl, hl⟩, fun n hn => ?_⟩
  -- Sixteen steps lead from an expression to the tightest level, and one more to the operand.
  obtain ⟨m, rfl⟩ : ∃ m, n = m + 3 + 1 + 13 + 2 := ⟨n - 19, by simp at hn; omega⟩
  refine takes_expression le_rfl (unled_of_isStart hl hne) (takes_power (h m ?_))
  simp only [List.length_cons] at hn
  omega

/-- A phrase that is a primary expression. -/
theorem of_primary (hl : l.isStart = true) (hne : l ≠ .word (.symbol .minus))
    (h : ∀ n, 20 * ls.length ≤ n → Takes (primary Grammar.python (n + 2)) (l :: ls) x) :
    Phrase (l :: ls) x :=
  of_operand hl hne fun n hn => takes_operand (h n hn)

/-- Phrases with commas between them, up to a closing bracket. -/
theorem takes_sequence (close : Symbol) (hclose : close ∈ [Symbol.rparen, .rbracket, .rbrace])
    (h : List.Forall₂ Phrase parts xs) (n : Nat) (hn : 20 * (separated parts).length + 20 ≤ n) :
    Takes (sequence Grammar.python n close) (separated parts ++ [.word (.symbol close)]) xs := by
  obtain ⟨hend, hstart, hcomma⟩ : (Lexeme.word (.symbol close)).isEnd = true ∧
      (Lexeme.word (.symbol close)).isStart = false ∧
      Lexeme.word (.symbol close) ≠ .word (.symbol .comma) := by
    revert close
    decide
  induction h generalizing n with
  | nil =>
    obtain ⟨m, rfl⟩ : ∃ m, n = m + 1 := ⟨n - 1, by omega⟩
    rw [Parse.sequence]
    exact takes_eat (takes_pure [])
  | @cons ls x parts xs hx hmore ih =>
    obtain ⟨m, rfl⟩ : ∃ m, n = m + 1 := ⟨n - 1, by omega⟩
    rw [separated_cons, List.length_append] at hn
    rw [Parse.sequence, separated_cons, List.append_assoc]
    refine takes_eat_of_avoids (hx.avoids hstart _) ?_
    refine (hx.takes m (by omega)).bind (ends_behind parts (ends_cons.mpr hend)) ?_
    -- A comma stands behind the part exactly when another part follows.
    cases hmore with
    | nil => exact takes_eat_of_avoids (avoids_cons hcomma) (takes_expect (takes_pure [x]))
    | cons hy hmore =>
      rw [behind, List.length_cons] at hn
      exact takes_eat ((ih m (by omega)).andThen (takes_pure _))

/-- Entries behind an entry, up to the closing brace. -/
theorem takes_entries {es : List (Expr × Expr)} (h : List.Forall₂ Entry parts es) (n : Nat)
    (hn : 20 * (behind parts).length + 20 ≤ n) :
    Takes (entries Grammar.python n) (behind parts ++ [.word (.symbol .rbrace)]) es := by
  induction h generalizing n with
  | nil =>
    obtain ⟨m, rfl⟩ : ∃ m, n = m + 1 := ⟨n - 1, by omega⟩
    rw [entries]
    exact takes_eat_of_avoids (avoids_cons (by simp)) (takes_expect (takes_pure []))
  | @cons ls e parts es he hmore ih =>
    obtain ⟨m, rfl⟩ : ∃ m, n = m + 1 := ⟨n - 1, by omega⟩
    obtain ⟨ks, vs, rfl, hk, hv⟩ := he
    rw [behind, separated_cons] at hn ⊢
    simp only [List.length_append, List.length_cons] at hn
    simp only [List.append_assoc, List.cons_append]
    rw [entries]
    refine takes_eat (takes_eat_of_avoids (hk.avoids rfl _) ?_)
    refine (hk.takes m (by omega)).bind (ends_cons.mpr rfl) (takes_expect ?_)
    refine (hv.takes m (by omega)).bind (ends_behind parts (ends_cons.mpr rfl)) ?_
    exact (ih m (by omega)).andThen (takes_pure _)

/-! ### Containers -/

theorem list (h : List.Forall₂ Phrase parts xs) :
    Phrase (bracketed .lbracket .rbracket parts) (.list xs) := by
  refine of_primary rfl (by simp) fun n hn => ?_
  simp only [List.length_append, List.length_singleton] at hn
  change Takes (advance >>= _) _ _
  refine takes_advance fun offset => ?_
  exact (takes_sequence .rbracket (by decide) h (n + 1) (by omega)).andThen (takes_pure _)

/-- A tuple of one item has a comma behind the item. -/
theorem tuple_singleton (h : Phrase ls x) :
    Phrase (.word (.symbol .lparen) :: (ls ++ [.word (.symbol .comma), .word (.symbol .rparen)]))
      (.tuple [x]) := by
  refine of_primary rfl (by simp) fun n hn => ?_
  simp only [List.length_append, List.length_cons, List.length_nil] at hn
  change Takes (advance >>= _) _ _
  refine takes_advance fun offset => ?_
  change Takes (group Grammar.python (n + 1)) _ _
  rw [group]
  refine takes_check_of_avoids (h.avoids rfl _) ?_
  refine (h.takes n (by omega)).bind (ends_cons.mpr rfl) ?_
  refine takes_check_of_avoids (avoids_cons (by simp)) (takes_check (takes_tail ?_))
  refine Takes.andThen (takes_sequence .rparen (by decide) .nil n ?_) (takes_pure _)
  simp [separated]
  omega

theorem tuple (h : List.Forall₂ Phrase parts xs) (hlen : xs.length ≠ 1) :
    Phrase (bracketed .lparen .rparen parts) (.tuple xs) := by
  refine of_primary rfl (by simp) fun n hn => ?_
  simp only [List.length_append, List.length_singleton] at hn
  change Takes (advance >>= _) _ _
  refine takes_advance fun offset => ?_
  change Takes (group Grammar.python (n + 1)) _ _
  rw [group]
  cases h with
  | nil => exact takes_check (takes_tail (takes_pure _))
  | @cons ls x parts xs hx hmore =>
    rw [separated_cons, List.length_append] at hn
    rw [separated_cons, List.append_assoc]
    refine takes_check_of_avoids (hx.avoids rfl _) ?_
    refine (hx.takes n (by omega)).bind (ends_behind parts (ends_cons.mpr rfl)) ?_
    cases hmore with
    | nil => exact absurd rfl hlen
    | @cons ms y parts xs hy hmore =>
      rw [behind, List.length_cons] at hn
      refine takes_check_of_avoids (avoids_cons (by simp)) (takes_check (takes_tail ?_))
      have hrest := takes_sequence .rparen (by decide) (.cons hy hmore) n (by omega)
      exact hrest.andThen (takes_pure _)

theorem set (h : List.Forall₂ Phrase parts xs) (hne : xs ≠ []) :
    Phrase (bracketed .lbrace .rbrace parts) (.set xs) := by
  refine of_primary rfl (by simp) fun n hn => ?_
  simp only [List.length_append, List.length_singleton] at hn
  change Takes (advance >>= _) _ _
  refine takes_advance fun offset => ?_
  change Takes (braces Grammar.python (n + 1)) _ _
  rw [braces]
  cases h with
  | nil => exact absurd rfl hne
  | @cons ls x parts xs hx hmore =>
    rw [separated_cons, List.length_append] at hn
    rw [separated_cons, List.append_assoc]
    refine takes_eat_of_avoids (hx.avoids rfl _) ?_
    refine (hx.takes n (by omega)).bind (ends_behind parts (ends_cons.mpr rfl)) ?_
    cases hmore with
    | nil =>
      refine takes_eat_of_avoids (avoids_cons (by simp)) ?_
      refine takes_eat_of_avoids (avoids_cons (by simp)) ?_
      exact takes_expect (takes_pure _)
    | @cons ms y parts xs hy hmore =>
      rw [behind, List.length_cons] at hn
      refine takes_eat_of_avoids (avoids_cons (by simp)) (takes_eat ?_)
      have hrest := takes_sequence .rbrace (by decide) (.cons hy hmore) n (by omega)
      exact hrest.andThen (takes_pure _)

theorem dict {es : List (Expr × Expr)} (h : List.Forall₂ Entry parts es) :
    Phrase (bracketed .lbrace .rbrace parts) (.dict es) := by
  refine of_primary rfl (by simp) fun n hn => ?_
  simp only [List.length_append, List.length_singleton] at hn
  change Takes (advance >>= _) _ _
  refine takes_advance fun offset => ?_
  change Takes (braces Grammar.python (n + 1)) _ _
  rw [braces]
  cases h with
  | nil => exact takes_eat (takes_pure _)
  | @cons ls e parts es he hmore =>
    obtain ⟨ks, vs, rfl, hk, hv⟩ := he
    rw [separated_cons] at hn ⊢
    simp only [List.length_append, List.length_cons] at hn
    simp only [List.append_assoc, List.cons_append]
    refine takes_eat_of_avoids (hk.avoids rfl _) ?_
    refine (hk.takes n (by omega)).bind (ends_cons.mpr rfl) (takes_eat ?_)
    refine (hv.takes n (by omega)).bind (ends_behind parts (ends_cons.mpr rfl)) ?_
    exact (takes_entries hmore n (by omega)).andThen (takes_pure _)

/-- A phrase spells its expression. -/
theorem spells (h : Phrase ls x) : Spells .python ls x :=
  spells_of_expression fun _ hn => h.consumes hn ends_nil

end Phrase

end TemplateEngine
