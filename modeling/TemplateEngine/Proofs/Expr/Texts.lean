import TemplateEngine.Proofs.Expr.Tokens
import TemplateEngine.Text.Literal

/-!
# Texts and their tokens

A text has its tokens wherever it stands (`Lexes`).  A token ends where the text behind it does not
go on with it.  A name ends in front of every character that stands in no name
(`Lexes.name_append`); a number ends in front of the same, unless a point and a digit make a
fraction of it (`Ceases`, `Lexes.digits_append`), so a member may stand behind it; a string ends at
its quote (`Lexes.string_append`); a bracket, a comma or a colon always ends (`Lexes.symbol`), and
every symbol does in front of a blank (`Lexes.symbol_append_blank`).
-/

namespace TemplateEngine

/-! ### Texts and their tokens -/

/-- Wherever the text stands, these are the contents of its tokens. -/
def Lexes (cs : List Char) (ls : List Lexeme) : Prop :=
  ∀ offset, ∃ ts, TokenStream.tokens offset cs = .ok ts ∧ ts.map Token.lexeme = ls

namespace Lexes

variable {cs ds : List Char} {ls ms : List Lexeme}

theorem nil : Lexes [] [] := fun offset => ⟨[], TokenStream.tokens_nil offset, rfl⟩

/-- The tokens of a text do not depend on where it stands. -/
theorem of_tokens {offset : Nat} {ts : List Token}
    (h : TokenStream.tokens offset cs = .ok ts) : Lexes cs (ts.map Token.lexeme) :=
  TokenStream.tokens_offset h

/-- A text has one row of tokens. -/
theorem unique (h : Lexes cs ls) (h' : Lexes cs ms) : ls = ms := by
  obtain ⟨ts, ht, rfl⟩ := h 0
  obtain ⟨us, hu, rfl⟩ := h' 0
  rw [ht] at hu
  cases hu
  rfl

/-- White space around a text has no tokens. -/
theorem trim (h : Lexes cs ls) : Lexes (Text.trim cs) ls := by
  obtain ⟨ts, ht, rfl⟩ := h 0
  rw [← TokenStream.tokens_trim] at ht
  exact of_tokens ht

theorem append (h : Lexes cs ls) (hb : Breaks ds) (h' : Lexes ds ms) :
    Lexes (cs ++ ds) (ls ++ ms) := by
  intro offset
  obtain ⟨ts, ht, hl⟩ := h offset
  obtain ⟨us, hu, hm⟩ := h' (offset + Text.byteLength cs)
  refine ⟨ts ++ us, ?_, by rw [List.map_append, hl, hm]⟩
  rw [TokenStream.tokens_append hb ht, hu]
  rfl

theorem blank {c : Char} (hc : Text.isBlank c = true) (h : Lexes cs ls) : Lexes (c :: cs) ls := by
  intro offset
  rw [TokenStream.tokens_blank hc]
  exact h _

/-- A token that ends in front of the text. -/
theorem token_append {c : Char} {l : Lexeme} (hc : Text.isBlank c = false)
    (h : Lexeme.read 0 c (cs ++ ds) = .ok (l, cs.length)) (h' : Lexes ds ms) :
    Lexes (c :: (cs ++ ds)) (l :: ms) := by
  intro offset
  obtain ⟨ts, ht, hl⟩ := h' (offset + Text.byteLength (c :: cs))
  refine ⟨⟨l, offset⟩ :: ts, ?_, by rw [List.map_cons, hl]⟩
  rw [Text.byteLength_cons] at ht
  rw [TokenStream.tokens_token hc, Lexeme.read_offset h]
  simp [Bind.bind, Except.bind, Except.map, ht]

/-- A character that is a token whatever follows it. -/
theorem cons {c : Char} {l : Lexeme} (hc : Text.isBlank c = false)
    (h : ∀ offset, Lexeme.read offset c cs = .ok (l, 0)) (h' : Lexes cs ls) :
    Lexes (c :: cs) (l :: ls) := by
  intro offset
  obtain ⟨ts, ht, hl⟩ := h' (offset + Text.byteLength [c])
  refine ⟨⟨l, offset⟩ :: ts, ?_, by rw [List.map_cons, hl]⟩
  rw [TokenStream.tokens_token hc, h]
  exact map_eq_ok_iff.mpr ⟨ts, ht, rfl⟩

end Lexes

/-- A symbol of one character that no other symbol begins with. -/
inductive Symbol.Stands : Char → Symbol → Prop where
  | minus : Stands '-' .minus
  | lparen : Stands '(' .lparen
  | rparen : Stands ')' .rparen
  | lbracket : Stands '[' .lbracket
  | rbracket : Stands ']' .rbracket
  | lbrace : Stands '\x7b' .lbrace
  | rbrace : Stands '\x7d' .rbrace
  | comma : Stands ',' .comma
  | colon : Stands ':' .colon

theorem Lexes.symbol {c : Char} {s : Symbol} (h : s.Stands c) {cs : List Char} {ls : List Lexeme}
    (h' : Lexes cs ls) : Lexes (c :: cs) (.word (.symbol s) :: ls) := by
  cases h <;> exact .cons (by decide) (fun offset => rfl) h'

/-- Every symbol ends in front of a blank. -/
theorem Lexes.symbol_append_blank (s : Symbol) {ds : List Char} {ms : List Lexeme}
    (h : Lexes (' ' :: ds) ms) : Lexes (s.chars ++ ' ' :: ds) (.word (.symbol s) :: ms) := by
  cases s <;> exact token_append (by decide) rfl h

/-! ### Names -/

/-- A letter or a low line, and behind it letters, numbers and low lines. -/
def IsIdentifier (name : String) : Prop :=
  ∃ c cs, name.toList = c :: cs ∧ Text.isNameStart c = true ∧ ∀ d ∈ cs, Text.isNamePart d = true

instance (name : String) : Decidable (IsIdentifier name) :=
  match h : name.toList with
  | [] => isFalse fun ⟨_, _, hcs, _⟩ => nomatch h.symm.trans hcs
  | c :: cs =>
    decidable_of_iff (Text.isNameStart c = true ∧ cs.all Text.isNamePart = true)
      ⟨fun ⟨hc, hpart⟩ => ⟨c, cs, h, hc, List.all_eq_true.mp hpart⟩, fun ⟨_, _, hcs, hc, hpart⟩ => by
        cases h.symm.trans hcs
        exact ⟨hc, List.all_eq_true.mpr hpart⟩⟩

theorem not_isBlank_of_isNamePart {c : Char} (h : Text.isNamePart c = true) :
    Text.isBlank c = false := by
  refine Bool.eq_false_iff.mpr fun hb => ?_
  rw [Text.isNamePart_of_isBlank hb] at h
  cases h

/-- No name begins with a digit. -/
theorem not_isDigit_of_isNameStart {c : Char} (h : Text.isNameStart c = true) :
    c.isDigit = false := by
  refine Bool.eq_false_iff.mpr fun hd => ?_
  have codes : ∀ n < 58, 48 ≤ n → Text.isNameStart (Char.ofNat n) = false := by decide
  obtain ⟨hge, hlt⟩ := toNat_of_isDigit hd
  have hn := codes c.toNat hlt hge
  rw [Char.ofNat_toNat, h] at hn
  cases hn

theorem not_isQuote_of_isNameStart {c : Char} (h : Text.isNameStart c = true) :
    Lexeme.isQuote c = false := by
  refine Bool.eq_false_iff.mpr fun hq => ?_
  rw [Lexeme.isQuote, Bool.or_eq_true, beq_iff_eq, beq_iff_eq] at hq
  rcases hq with rfl | rfl <;> exact absurd h (by decide)

theorem takeWhile_eq_nil_of_head? {p : Char → Bool} {cs : List Char}
    (h : ∀ c ∈ cs.head?, p c = false) : cs.takeWhile p = [] := by
  cases cs with
  | nil => rfl
  | cons c cs => simp [h c rfl]

/-- A name in front of a text that goes on with no name. -/
theorem Lexes.name_append {name : String} (hname : IsIdentifier name) {ds : List Char}
    {ms : List Lexeme} (hd : ∀ d ∈ ds.head?, Text.isNamePart d = false) (h : Lexes ds ms) :
    Lexes (name.toList ++ ds) (.word (.name name) :: ms) := by
  obtain ⟨c, cs, hcs, hc, hpart⟩ := hname
  have hmore : (cs ++ ds).takeWhile Text.isNamePart = cs := by
    rw [List.takeWhile_append_of_pos hpart, takeWhile_eq_nil_of_head? hd, List.append_nil]
  have hofList : String.ofList (c :: cs) = name := by rw [← hcs, String.ofList_toList]
  rw [hcs, List.cons_append]
  refine token_append (not_isBlank_of_isNamePart (isNamePart_of_isNameStart hc)) ?_ h
  rw [Lexeme.read, not_isDigit_of_isNameStart hc, not_isQuote_of_isNameStart hc, hc, hmore]
  simp [hofList]

theorem Lexes.name {name : String} (hname : IsIdentifier name) :
    Lexes name.toList [.word (.name name)] := by
  simpa using name_append hname (fun _ hd => by cases hd) nil

/-- A number is no name. -/
theorem Lexeme.ne_name_of_readNumber {offset : Nat} {cs : List Char} {l : Lexeme} {n : Nat}
    (h : readNumber offset cs = .ok (l, n)) (name : String) : l ≠ .word (.name name) := by
  unfold readNumber at h
  dsimp only at h
  split at h
  · split at h <;> cases h
    exact nofun
  · cases h
    exact nofun

theorem Lexeme.isIdentifier_of_read {offset : Nat} {c : Char} {cs : List Char} {name : String}
    {n : Nat} (h : read offset c cs = .ok (.word (.name name), n)) : IsIdentifier name := by
  unfold read at h
  split at h
  · obtain ⟨⟨l, m⟩, hl, he⟩ := bind_eq_ok_iff.mp h
    cases he
    exact absurd rfl (ne_name_of_readNumber hl name)
  · split at h
    · split at h <;> cases h
    · split at h
      · next hc =>
        cases h
        exact ⟨c, cs.takeWhile Text.isNamePart, String.toList_ofList, hc,
          fun d hd => List.mem_takeWhile_imp hd⟩
      · split at h <;> cases h

/-- What is read as a name is one. -/
theorem TokenStream.isIdentifier_of_mem_tokens {offset : Nat} {cs : List Char} {ts : List Token}
    (h : tokens offset cs = .ok ts) {name : String} :
    .word (.name name) ∈ ts.map Token.lexeme → IsIdentifier name := by
  intro hmem
  obtain ⟨t, ht, hname⟩ := List.mem_map.mp hmem
  obtain ⟨c, ds, n, hread⟩ := exists_read_of_mem_tokens h ht
  rw [hname] at hread
  exact Lexeme.isIdentifier_of_read hread

/-- A name behind a point. -/
theorem Lexes.dot {name : String} (hname : IsIdentifier name) {ls : List Lexeme}
    (h : Lexes name.toList ls) : Lexes ('.' :: name.toList) (.word (.symbol .dot) :: ls) := by
  obtain ⟨c, cs, hcs, hc, -⟩ := hname
  have hne : ('.' == c) = false := by
    refine beq_eq_false_iff_ne.mpr ?_
    rintro rfl
    exact absurd hc (by decide)
  have hlead : Symbol.leading? ('.' :: c :: cs) = some .dot := by
    simp [Symbol.leading?, Symbol.all, Symbol.chars, List.find?, List.isPrefixOf, hne]
  rw [hcs] at h ⊢
  refine cons (by decide) (fun offset => ?_) h
  simp [Lexeme.read, Lexeme.isQuote, Text.isNameStart, Text.isAlphabetic, hlead]
  decide

/-! ### Integers -/

/-- Every integer but the least one has an opposite. -/
theorem Number.toInt_neg {i : Int64} (h : i ≠ Int64.minValue) : (-i).toInt = -i.toInt := by
  have hle := i.le_toInt
  have hlt := i.toInt_lt
  have hne : i.toInt ≠ Int64.minValue.toInt := fun he => h (Int64.toInt_inj.mp he)
  have hmin : Int64.minValue.toInt = -2 ^ 63 := rfl
  rw [Int64.toInt_neg, Int.bmod_eq_of_le (by omega) (by omega)]

theorem Number.ofDigits_toDigits (n : Nat) : ofDigits (Nat.toDigits 10 n) = n :=
  Nat.ofDigitChars_ten_toDigits

/-- The text goes on with no name and no number. -/
def Ceases (cs : List Char) : Prop :=
  (∀ c ∈ cs.head?, Text.isNamePart c = false) ∧ Lexeme.fractionText cs = []

theorem ceases_nil : Ceases [] := ⟨nofun, rfl⟩

theorem Breaks.ceases {cs : List Char} (h : Breaks cs) : Ceases cs := by
  have hfraction : Lexeme.fractionText ([] ++ cs) = [] := Lexeme.fractionText_append h
  exact ⟨fun c hc => isNamePart_of_isBreak (h c hc), hfraction⟩

/-- A point and a name make no fraction. -/
theorem ceases_dot {name : String} (hname : IsIdentifier name) : Ceases ('.' :: name.toList) := by
  obtain ⟨c, cs, hcs, hc, -⟩ := hname
  refine ⟨fun d hd => ?_, ?_⟩
  · cases hd
    decide
  · simp [hcs, Lexeme.fractionText, not_isDigit_of_isNameStart hc]

theorem isDigit_of_mem_toDigits {n : Nat} {d : Char} (h : d ∈ Nat.toDigits 10 n) :
    d.isDigit = true :=
  Nat.isDigit_of_mem_toDigits (by decide) (by decide) h

namespace Lexeme

/-- An exponent begins with a letter. -/
theorem exponentText_of_head? {ds : List Char} (h : ∀ c ∈ ds.head?, Text.isNamePart c = false) :
    exponentText ds = [] := by
  cases ds with
  | nil => rfl
  | cons e ds =>
    have he : (e == 'e' || e == 'E') = false := by
      have hn := h e rfl
      refine Bool.eq_false_iff.mpr fun he => ?_
      rw [Bool.or_eq_true, beq_iff_eq, beq_iff_eq] at he
      rcases he with rfl | rfl <;> exact absurd hn (by decide)
    simp only [exponentText, he, Bool.false_and]
    split <;> rfl

/-- A row of digits is a number without fraction and exponent. -/
theorem numberText_digits {cs ds : List Char} (h : ∀ d ∈ cs, d.isDigit = true) (hd : Ceases ds) :
    numberText (cs ++ ds) = (cs, [], []) := by
  have hstop : ∀ c ∈ ds.head?, isDigitPart c = false := fun c hc =>
    Bool.eq_false_iff.mpr fun hp => by
      have hn := hd.1 c hc
      rw [isNamePart_of_isDigitPart hp] at hn
      cases hn
  have hw : (cs ++ ds).takeWhile isDigitPart = cs := by
    rw [List.takeWhile_append_of_pos fun d hm => by simp [isDigitPart, h d hm],
      takeWhile_eq_nil_of_head? hstop, List.append_nil]
  simp [numberText, hw, hd.2, exponentText_of_head? hd.1]

theorem readNumber_toDigits {n : Nat} {i : Int64} (hn : Number.fit? n = some i) (offset : Nat)
    {ds : List Char} (hds : Ceases ds) :
    readNumber offset (Nat.toDigits 10 n ++ ds) = .ok (.int i, (Nat.toDigits 10 n).length) := by
  have hf : (Nat.toDigits 10 n).filter (· != '_') = Nat.toDigits 10 n := by
    refine List.filter_eq_self.mpr fun d hm => bne_iff_ne.mpr ?_
    rintro rfl
    exact absurd (isDigit_of_mem_toDigits hm) (by decide)
  simp [readNumber, numberText_digits (fun _ => isDigit_of_mem_toDigits) hds, hf,
    Number.ofDigits_toDigits, hn]

end Lexeme

theorem not_isBlank_of_isDigit {c : Char} (h : c.isDigit = true) : Text.isBlank c = false := by
  refine Bool.eq_false_iff.mpr fun hb => ?_
  rw [isDigit_of_isBreak (by simp [isBreak, hb])] at h
  cases h

/-- The digits of a number in front of a text that goes on with no number. -/
theorem Lexes.digits_append {n : Nat} {i : Int64} (hn : Number.fit? n = some i) {ds : List Char}
    {ms : List Lexeme} (hds : Ceases ds) (h : Lexes ds ms) :
    Lexes (Nat.toDigits 10 n ++ ds) (.int i :: ms) := by
  have hread := Lexeme.readNumber_toDigits hn 0 hds
  cases hcs : Nat.toDigits 10 n with
  | nil => exact absurd hcs Nat.toDigits_ne_nil
  | cons c cs =>
    have hc : c.isDigit = true := isDigit_of_mem_toDigits (n := n) (by simp [hcs])
    rw [hcs] at hread
    refine token_append (not_isBlank_of_isDigit hc) ?_ h
    rw [Lexeme.read, if_pos hc, ← List.cons_append, hread]
    rfl

theorem Lexes.digits {n : Nat} {i : Int64} (hn : Number.fit? n = some i) :
    Lexes (Nat.toDigits 10 n) [.int i] := by
  simpa using digits_append hn ceases_nil nil

/-- An integer that is not negative in front of a text that goes on with no number. -/
theorem Lexes.int_append {i : Int64} (hi : 0 ≤ i.toInt) {ds : List Char} {ms : List Lexeme}
    (hds : Ceases ds) (h : Lexes ds ms) :
    Lexes ((Number.writeInt i.toInt).toList ++ ds) (.int i :: ms) := by
  have habs : (i.toInt.natAbs : Int) = i.toInt := by omega
  have hfit : Number.fit? i.toInt.natAbs = some i := habs ▸ Number.fit?_toInt i
  have hneg : ¬ i.toInt < 0 := by omega
  rw [Number.writeInt, String.toList_ofList]
  simpa [hneg] using digits_append hfit hds h

/-! ### Strings -/

/-- A literal is read up to its closing quote, and its escapes are undone. -/
theorem Lexeme.readString?_literal {q : Char} (hq : isQuote q = true) (cs : List Char) :
    readString? q (cs.flatMap (Text.literalChar q) ++ [q]) =
      some (cs, (cs.flatMap (Text.literalChar q)).length + 1) := by
  have hqs : q = '\x27' ∨ q = '"' := by simpa [isQuote] using hq
  have hne : q ≠ '\\' := by rcases hqs with rfl | rfl <;> decide
  have hself : unescape q = [q] := by rcases hqs with rfl | rfl <;> rfl
  induction cs with
  | nil => simp [readString?_cons q hne]
  | cons c cs ih =>
    rw [List.flatMap_cons, List.append_assoc]
    -- every escape stands for the character that it was written for
    have escape : ∀ d, Text.literalChar q c = ['\\', d] → unescape d = [c] →
        readString? q (Text.literalChar q c ++ (cs.flatMap (Text.literalChar q) ++ [q])) =
          some (c :: cs, (Text.literalChar q c ++ cs.flatMap (Text.literalChar q)).length + 1) := by
      intro d hl hu
      simp [hl, readString?, ih, hu]
    by_cases hb : c = '\\'
    · exact escape '\\' (by rw [hb]; rfl) (by rw [hb]; rfl)
    by_cases hn : c = '\n'
    · exact escape 'n' (by rw [hn]; rfl) (by rw [hn]; rfl)
    by_cases hr : c = '\r'
    · exact escape 'r' (by rw [hr]; rfl) (by rw [hr]; rfl)
    by_cases ht : c = '\t'
    · exact escape 't' (by rw [ht]; rfl) (by rw [ht]; rfl)
    have hplain : Text.literalChar q c = if c == q then ['\\', c] else [c] :=
      Text.literalChar.eq_5 q c hb hn hr ht
    by_cases hc : c = q
    · exact escape c (by rw [hplain, if_pos (beq_iff_eq.mpr hc)]) (by rw [hc, hself])
    · simp [hplain, hc, readString?_cons q hb, ih]

theorem isQuote_literalQuote (cs : List Char) :
    Lexeme.isQuote (Text.literalQuote cs) = true := by
  unfold Text.literalQuote
  split <;> rfl

/-- A string literal is one token, which holds the string. -/
theorem Lexes.string_append (s : String) {ds : List Char} {ms : List Lexeme} (h : Lexes ds ms) :
    Lexes ((Text.literal s).toList ++ ds) (.str s :: ms) := by
  have hq := isQuote_literalQuote s.toList
  have hread := Lexeme.readString?_append (Lexeme.readString?_literal hq s.toList) ds
  have hqs : Text.literalQuote s.toList = '\x27' ∨ Text.literalQuote s.toList = '"' := by
    simpa [Lexeme.isQuote] using hq
  have hd : (Text.literalQuote s.toList).isDigit = false := by
    rcases hqs with h | h <;> rw [h] <;> decide
  have htext : (Text.literal s).toList ++ ds = Text.literalQuote s.toList ::
      (s.toList.flatMap (Text.literalChar (Text.literalQuote s.toList)) ++
        [Text.literalQuote s.toList] ++ ds) := by
    simp [Text.literal, Text.literalChars]
  rw [htext]
  refine token_append (by rcases hqs with h | h <;> rw [h] <;> decide) ?_ h
  rw [Lexeme.read, hd, hq, hread]
  simp

theorem Lexes.string (s : String) : Lexes (Text.literal s).toList [.str s] := by
  simpa using string_append s nil

end TemplateEngine
