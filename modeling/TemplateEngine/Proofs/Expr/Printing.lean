import TemplateEngine.Proofs.Expr.Written

/-!
# Printed tokens

An integer is printed in base ten, a string as the literal that `Value.repr` writes, a word as it
is (`Lexeme.text`), and a row of tokens with single blanks between them (`Lexeme.printed`).
*Printable* are the integers that are not negative, the strings, the identifiers and the symbols
(`Lexeme.Printable`).  The tokens of a printed row are the row, and each stands at the byte where
its text begins (`TokenStream.ofString_printed`).

What is read from a text is printable, floats apart (`TokenStream.printable_of_mem_tokens`).  So to
print the tokens of a text without floats is to write it in a normal form (`Lexes.printed`).
-/

namespace TemplateEngine

namespace Lexeme

/-! ### Printing -/

/-- A token as it is written; the end has no text. -/
def text : Lexeme → String
  | .int i => Number.writeInt i.toInt
  | .float x => Layout.value.write x
  | .str s => (Value.str s).repr
  | .word w => w.text
  | .stop => ""

/-- An integer that is not negative, a string, an identifier or a symbol.  A minus is a token of its
own, and no text is read as the end. -/
def Printable : Lexeme → Prop
  | .int i => 0 ≤ i.toInt
  | .str _ => True
  | .word w => w.Printable
  | .float _ | .stop => False

instance : (l : Lexeme) → Decidable l.Printable
  | .int i => inferInstanceAs (Decidable (0 ≤ i.toInt))
  | .word w => inferInstanceAs (Decidable w.Printable)
  | .str _ => inferInstanceAs (Decidable True)
  | .float _ | .stop => inferInstanceAs (Decidable False)

/-- Tokens with single blanks between them. -/
def printed (ls : List Lexeme) : String := " ".intercalate (ls.map text)

/-- Tokens with a blank behind each: what stands in front of the next one. -/
def spaced (ls : List Lexeme) : List Char := ls.flatMap fun l => l.text.toList ++ [' ']

/-- The tokens of a row that is printed at `offset`, each at the byte where its text begins. -/
def placed (offset : Nat) (ls : List Lexeme) : List Token :=
  ls.mapIdx fun i l => ⟨l, offset + Text.byteLength (spaced (ls.take i))⟩

theorem placed_cons (offset : Nat) (l : Lexeme) (ls : List Lexeme) :
    placed offset (l :: ls) =
      ⟨l, offset⟩ :: placed (offset + Text.byteLength (l.text.toList ++ [' '])) ls := by
  simp [placed, spaced, List.mapIdx_cons, Nat.add_assoc]

theorem map_lexeme_placed (offset : Nat) (ls : List Lexeme) :
    (placed offset ls).map Token.lexeme = ls := by
  induction ls generalizing offset with
  | nil => rfl
  | cons l ls ih => rw [placed_cons, List.map_cons, ih]

theorem printed_cons (l : Lexeme) {ls : List Lexeme} (h : ls ≠ []) :
    printed (l :: ls) = l.text ++ " " ++ printed ls := by
  rw [printed, List.map_cons, String.intercalate_cons_of_ne_nil (by simpa using h), printed]

/-- A blank behind the last token makes the tokens alike. -/
theorem printed_append_space {ls : List Lexeme} (h : ls ≠ []) :
    (printed ls).toList ++ [' '] = spaced ls := by
  induction ls with
  | nil => exact absurd rfl h
  | cons l ls ih =>
    by_cases hls : ls = []
    · simp [hls, printed, spaced]
    · have hmore : (printed ls).toList ++ [' '] = ls.flatMap fun l => l.text.toList ++ [' '] :=
        ih hls
      simp [printed_cons l hls, spaced, hmore]

/-- In front of a token of a printed row stand the tokens before it, a blank behind each. -/
theorem exists_printed_append (before : List Lexeme) (l : Lexeme) (after : List Lexeme) :
    ∃ rest, (printed (before ++ l :: after)).toList =
      spaced before ++ l.text.toList ++ rest := by
  induction before with
  | nil =>
    by_cases hafter : after = []
    · exact ⟨[], by simp [hafter, printed, spaced]⟩
    · exact ⟨' ' :: (printed after).toList, by simp [printed_cons l hafter, spaced]⟩
  | cons m before ih =>
    obtain ⟨rest, hrest⟩ := ih
    refine ⟨rest, ?_⟩
    rw [List.cons_append, printed_cons m (by simp), String.toList_append, hrest]
    simp [spaced]

/-! ### Single tokens -/

namespace Printable

variable {l : Lexeme}

/-- A printed token in front of a blank. -/
theorem lexes_append (h : l.Printable) {ds : List Char} {ms : List Lexeme}
    (hd : Lexes (' ' :: ds) ms) : Lexes (l.text.toList ++ ' ' :: ds) (l :: ms) := by
  match l, h with
  | .int i, hi => exact Lexes.int_append hi (breaks_cons.mpr (by decide)).ceases hd
  | .str s, _ => exact Lexes.string_append s hd
  | .word w, hw => exact Lexes.word hw hd

/-- No printed token begins with a blank. -/
theorem exists_cons (h : l.Printable) :
    ∃ c cs, l.text.toList = c :: cs ∧ Text.isBlank c = false := by
  match l, h with
  | .int i, hi =>
    have hneg : ¬ i.toInt < 0 := not_lt.mpr hi
    have htext : (text (.int i)).toList = Nat.toDigits 10 i.toInt.natAbs := by
      simp [text, Number.writeInt, hneg]
    obtain ⟨c, cs, hcs⟩ : ∃ c cs, Nat.toDigits 10 i.toInt.natAbs = c :: cs :=
      List.exists_cons_of_ne_nil Nat.toDigits_ne_nil
    have hc : c.isDigit = true := isDigit_of_mem_toDigits (n := i.toInt.natAbs) (by simp [hcs])
    exact ⟨c, cs, htext.trans hcs, not_isBlank_of_isDigit hc⟩
  | .str s, _ =>
    have htext : (text (.str s)).toList = Text.literalChars s.toList := String.toList_ofList
    refine ⟨_, _, htext, ?_⟩
    unfold Text.literalQuote
    split <;> decide
  | .word (.name s), hs =>
    obtain ⟨c, cs, hcs, hc, -⟩ := hs
    exact ⟨c, cs, hcs, not_isBlank_of_isNamePart (isNamePart_of_isNameStart hc)⟩
  | .word (.symbol s), _ => cases s <;> exact ⟨_, _, rfl, by decide⟩

/-- The text of a printed token is that one token. -/
theorem tokens_text (h : l.Printable) (offset : Nat) :
    TokenStream.tokens offset l.text.toList = .ok [⟨l, offset⟩] := by
  -- The lemmas on texts say what the token is in front of a blank; that its offset is the one of
  -- the text, its first character says.
  obtain ⟨ts, hts, hl⟩ := h.lexes_append (Lexes.blank (c := ' ') (by decide) Lexes.nil) offset
  rw [TokenStream.tokens_append_blank Text.allBlank_space] at hts
  obtain ⟨c, cs, hcs, hc⟩ := h.exists_cons
  rw [hcs] at hts ⊢
  obtain ⟨m, n, more, -, -, rfl⟩ := TokenStream.tokens_cons_ok hc hts
  obtain ⟨rfl, hmore⟩ := List.cons_eq_cons.mp hl
  rw [hts, List.map_eq_nil_iff.mp hmore]

end Printable

/-- An integer is read without a sign. -/
theorem nonneg_of_read {offset : Nat} {c : Char} {cs : List Char} {i : Int64} {n : Nat}
    (h : read offset c cs = .ok (.int i, n)) : 0 ≤ i.toInt := by
  unfold read at h
  split at h
  · obtain ⟨⟨l, m⟩, hl, he⟩ := bind_eq_ok_iff.mp h
    cases he
    unfold readNumber at hl
    dsimp only at hl
    split at hl
    · split at hl
      · next w hw =>
        cases hl
        rw [Number.toInt_of_fit? hw]
        exact Int.natCast_nonneg _
      · cases hl
    · cases hl
  · split at h
    · split at h <;> cases h
    · split at h
      · cases h
      · split at h <;> cases h

/-- What is read is printable or a float. -/
theorem printable_of_read {offset : Nat} {c : Char} {cs : List Char} {l : Lexeme} {n : Nat}
    (h : read offset c cs = .ok (l, n)) (hl : ∀ x, l ≠ .float x) : l.Printable := by
  cases l with
  | int i => exact nonneg_of_read h
  | float x => exact absurd rfl (hl x)
  | str s => trivial
  | word w =>
    cases w with
    | name s => exact isIdentifier_of_read h
    | symbol s => trivial
  | stop => exact absurd rfl (ne_stop_of_read h)

end Lexeme

/-! ### Rows of tokens -/

namespace TokenStream

open Lexeme

variable {ls : List Lexeme}

/-- Tokens with a blank behind each are read one by one. -/
theorem tokens_spaced (h : ∀ l ∈ ls, l.Printable) (offset : Nat) :
    tokens offset (spaced ls) = .ok (placed offset ls) := by
  induction ls generalizing offset with
  | nil => exact tokens_nil offset
  | cons l ls ih =>
    obtain ⟨hl, hls⟩ := List.forall_mem_cons.mp h
    have hspaced : spaced (l :: ls) = l.text.toList ++ ' ' :: spaced ls := by simp [spaced]
    have hbreak : Breaks (' ' :: spaced ls) := breaks_cons.mpr (by decide)
    rw [hspaced, tokens_append hbreak (hl.tokens_text offset), tokens_blank (by decide), ih hls,
      placed_cons, Text.byteLength_append, Nat.add_assoc]
    rfl

theorem tokens_printed (h : ∀ l ∈ ls, l.Printable) (offset : Nat) :
    tokens offset (printed ls).toList = .ok (placed offset ls) := by
  by_cases hne : ls = []
  · subst hne
    exact tokens_nil offset
  · rw [← tokens_append_blank Text.allBlank_space, printed_append_space hne, tokens_spaced h]

/-- **A printed row is read back.**  Its tokens are the row and the end.  Each token has the offset
of its text, behind the tokens before it and their blanks, and the end that of the whole text. -/
theorem ofString_printed (h : ∀ l ∈ ls, l.Printable) (base : Nat) :
    (ofString (printed ls) base).map toList =
        .ok (placed base ls ++ [⟨.stop, base + Text.byteLength (printed ls).toList⟩]) ∧
      ∀ i (hi : i < ls.length), ∃ rest,
        (printed ls).toList = spaced (ls.take i) ++ ls[i].text.toList ++ rest := by
  constructor
  · rw [ofString, tokens_printed h]
    rfl
  · intro i hi
    have hcut := exists_printed_append (ls.take i) ls[i] (ls.drop (i + 1))
    rwa [← List.drop_eq_getElem_cons hi, List.take_append_drop] at hcut

/-- Quotes of both kinds, a backslash in front of a letter, line breaks, a NUL and letters of more
than one byte; the greatest integer; an operator that begins with another one. -/
theorem ofString_printed_escapes :
    let ls : List Lexeme := [.str "\x27\\n\n\"\x00é", .word (.name "größe_1"),
      .word (.symbol .starStar), .int 9223372036854775807, .str "it\x27s"]
    (∀ l ∈ ls, l.Printable) ∧
      (ofString "\x27\\\x27\\\\n\\n\"\x00é\x27 größe_1 ** 9223372036854775807 \"it\x27s\"" 5).map
          toList =
        .ok [⟨.str "\x27\\n\n\"\x00é", 5⟩, ⟨.word (.name "größe_1"), 19⟩,
          ⟨.word (.symbol .starStar), 29⟩, ⟨.int 9223372036854775807, 32⟩, ⟨.str "it\x27s", 52⟩,
          ⟨.stop, 58⟩] := by
  intro ls
  have h : ∀ l ∈ ls, l.Printable := by decide +kernel
  have htext : printed ls =
      "\x27\\\x27\\\\n\\n\"\x00é\x27 größe_1 ** 9223372036854775807 \"it\x27s\"" := by
    decide +kernel
  have hread := (ofString_printed h 5).1
  rw [htext] at hread
  exact ⟨h, hread.trans (by decide +kernel)⟩

/-- The tokens of a text are printable, floats apart. -/
theorem printable_of_mem_tokens {offset : Nat} {cs : List Char} {ts : List Token}
    (h : tokens offset cs = .ok ts) (hf : ∀ x, .float x ∉ ts.map Token.lexeme) :
    ∀ l ∈ ts.map Token.lexeme, l.Printable := by
  intro l hl
  obtain ⟨t, ht, rfl⟩ := List.mem_map.mp hl
  obtain ⟨c, ds, n, hread⟩ := exists_read_of_mem_tokens h ht
  refine Lexeme.printable_of_read hread fun x hx => hf x ?_
  rwa [← hx]

end TokenStream

namespace Lexes

variable {cs : List Char} {ls : List Lexeme}

theorem of_printable (h : ∀ l ∈ ls, l.Printable) : Lexes (Lexeme.printed ls).toList ls :=
  fun offset =>
    ⟨_, TokenStream.tokens_printed h offset, Lexeme.map_lexeme_placed offset ls⟩

/-- The tokens of a text without floats are those of the text that is printed for them. -/
theorem printed (h : Lexes cs ls) (hf : ∀ x, .float x ∉ ls) :
    Lexes (Lexeme.printed ls).toList ls := by
  obtain ⟨ts, hts, rfl⟩ := h 0
  exact of_printable (TokenStream.printable_of_mem_tokens hts hf)

end Lexes

end TemplateEngine
