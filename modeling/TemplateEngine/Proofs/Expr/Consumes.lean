import TemplateEngine.Proofs.Expr.Balance

/-!
# Readers in front of given tokens

What a reader takes is stated together with the tokens behind it (`Parse.Consumes`): a reader of
expressions stops where it does because of the next token.  Readers one behind the other take their
tokens one behind the other (`Parse.Consumes.bind`), a reader that looks at the next token takes
what it takes once that token is known, and which operator is found depends on the words at the
start of the tokens alone (`Parse.consumes_operator?_some`, `Parse.consumes_operator?_none`).
-/

namespace TemplateEngine.Parse

variable {α β : Type}

/-- In front of `rest`, the reader takes these tokens and gives `a`. -/
def Consumes (p : Parse α) (ls rest : List Lexeme) (a : α) : Prop :=
  ∀ s, s.lexemes = ls ++ rest → ∃ t, p s = .ok (a, t) ∧ t.lexemes = rest

theorem consumes_pure (a : α) (rest : List Lexeme) : Consumes (pure a) [] rest a :=
  fun s hs => ⟨s, rfl, hs⟩

section
variable {p : Parse α} {q : Parse β} {f : α → Parse β} {ls ms rest : List Lexeme} {l : Lexeme}
  {w : Word} {a : α} {b : β}

/-- A reader, and behind it a second one. -/
theorem Consumes.bind (hp : Consumes p ls (ms ++ rest) a) (hf : Consumes (f a) ms rest b) :
    Consumes (p >>= f) (ls ++ ms) rest b := by
  intro s hs
  obtain ⟨t, ht, hl⟩ := hp s (by rw [hs, List.append_assoc])
  obtain ⟨u, hu, hl'⟩ := hf t hl
  exact ⟨u, bind_eq_ok_iff.mpr ⟨(a, t), ht, hu⟩, hl'⟩

theorem Consumes.andThen (hp : Consumes p ls rest a) (hf : Consumes (f a) [] rest b) :
    Consumes (p >>= f) ls rest b := by
  have h : Consumes (p >>= f) (ls ++ []) rest b := Consumes.bind hp hf
  simpa using h

theorem Consumes.map (hp : Consumes p ls rest a) (g : α → β) :
    Consumes (g <$> p) ls rest (g a) := by
  rw [map_eq_pure_bind]
  exact hp.andThen (consumes_pure _ rest)

theorem consumes_tail (h : Consumes q ls rest b) :
    Consumes (modify TokenStream.tail >>= fun _ => q) (l :: ls) rest b :=
  fun s hs => h s.tail (by rw [s.lexemes_tail, hs]; rfl)

theorem consumes_peek {f : Token → Parse β}
    (h : ∀ l offset, (ls ++ rest).headD .stop = l → Consumes (f ⟨l, offset⟩) ls rest b) :
    Consumes (peek >>= f) ls rest b :=
  fun s hs => h s.peek.lexeme s.peek.offset (by rw [s.peek_lexeme, hs]) s hs

theorem consumes_advance {f : Token → Parse β} (h : ∀ offset, Consumes (f ⟨l, offset⟩) ls rest b) :
    Consumes (advance >>= f) (l :: ls) rest b := by
  rw [advance_bind]
  refine consumes_peek fun m offset hm => consumes_tail ?_
  cases hm
  exact h offset

/-- A word that comes next. -/
theorem consumes_check {f : Bool → Parse β} (hw : (ls ++ rest).headD .stop = .word w)
    (h : Consumes (f true) ls rest b) : Consumes (check w >>= f) ls rest b := by
  simp only [check, bind_assoc, pure_bind]
  refine consumes_peek fun m offset hm => ?_
  rw [hw] at hm
  cases hm
  simpa using h

/-- A word that does not come next. -/
theorem consumes_check_of_ne {f : Bool → Parse β} (hw : (ls ++ rest).headD .stop ≠ .word w)
    (h : Consumes (f false) ls rest b) : Consumes (check w >>= f) ls rest b := by
  simp only [check, bind_assoc, pure_bind]
  refine consumes_peek fun m offset hm => ?_
  have hne : (m == Lexeme.word w) = false := beq_eq_false_iff_ne.mpr (hm ▸ hw)
  simpa [hne] using h

theorem consumes_eat {f : Bool → Parse β} (h : Consumes (f true) ls rest b) :
    Consumes (eat w >>= f) (.word w :: ls) rest b := by
  rw [eat_bind]
  refine consumes_peek fun m offset hm => ?_
  cases hm
  simpa using consumes_tail h

theorem consumes_eat_of_ne {f : Bool → Parse β} (hw : (ls ++ rest).headD .stop ≠ .word w)
    (h : Consumes (f false) ls rest b) : Consumes (eat w >>= f) ls rest b := by
  rw [eat_bind]
  refine consumes_peek fun m offset hm => ?_
  have hne : (m == Lexeme.word w) = false := beq_eq_false_iff_ne.mpr (hm ▸ hw)
  simpa [hne] using h

theorem consumes_expect {f : Unit → Parse β} (h : Consumes (f ()) ls rest b) :
    Consumes (expect w >>= f) (.word w :: ls) rest b := by
  rw [expect, bind_assoc]
  exact consumes_eat h

/-! ### Signs and operators -/

/-- The first sign that the next token spells. -/
theorem consumes_sign?_some {s : Symbol} {op : UnaryOp} {operators : List (Symbol × UnaryOp)}
    (h : operators.find? (fun o => o.1 == s) = some (s, op)) :
    Consumes (sign? operators) [.word (.symbol s)] rest (some op) := by
  induction operators with
  | nil => cases h
  | cons o more ih =>
    rw [sign?]
    by_cases ho : o.1 = s
    · rw [List.find?_cons_of_pos (by simp [ho]), Option.some_inj] at h
      subst h
      exact consumes_eat (consumes_pure _ rest)
    · rw [List.find?_cons_of_neg (by simp [ho])] at h
      exact consumes_eat_of_ne (by simpa using Ne.symm ho) (ih h)

/-- The tokens begin with these words. -/
def spelledBy (words : List Word) (ls : List Lexeme) : Bool := (words.map .word).isPrefixOf ls

theorem spelledBy_of_ne {words : List Word} (hw : ls.headD .stop ≠ .word w) :
    spelledBy (w :: words) ls = false := by
  cases ls with
  | nil => rfl
  | cons l ls => simpa [spelledBy, List.isPrefixOf] using fun hl => absurd hl.symm hw

theorem operator?_eq (operators : List (List Word × BinaryOp)) (s : TokenStream) :
    operator? operators s = .ok (match operators.find? fun o => spelledBy o.1 s.lexemes with
      | some o => (some o.2, { s with rest := s.rest.drop o.1.length })
      | none => (none, s)) := by
  induction operators with
  | nil => rfl
  | cons o more ih =>
    obtain ⟨words, op⟩ := o
    rw [operator?]
    change (if s.startsWith words then _ else operator? more : Parse (Option BinaryOp)) s = _
    have hwords : s.startsWith words = spelledBy words s.lexemes := rfl
    cases hs : spelledBy words s.lexemes with
    | true =>
      simp only [hwords, hs, if_true, List.find?_cons]
      rfl
    | false =>
      simpa [hwords, hs, List.find?_cons] using ih

/-- The first operator whose words the tokens begin with. -/
theorem consumes_operator?_some {operators : List (List Word × BinaryOp)} {words : List Word}
    {op : BinaryOp}
    (h : operators.find? (fun o => spelledBy o.1 (words.map .word ++ rest)) = some (words, op)) :
    Consumes (operator? operators) (words.map .word) rest (some op) := by
  intro s hs
  refine ⟨{ s with rest := s.rest.drop words.length }, by rw [operator?_eq, hs, h], ?_⟩
  rw [TokenStream.lexemes, List.map_drop, ← TokenStream.lexemes, hs]
  simp

theorem consumes_operator?_none {operators : List (List Word × BinaryOp)}
    (h : operators.find? (fun o => spelledBy o.1 rest) = none) :
    Consumes (operator? operators) [] rest none := by
  intro s hs
  rw [List.nil_append] at hs
  exact ⟨s, by rw [operator?_eq, hs, h], hs⟩

end

end TemplateEngine.Parse
