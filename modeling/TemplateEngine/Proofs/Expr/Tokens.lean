import TemplateEngine.Expr.Parse
import TemplateEngine.Proofs.Except
import TemplateEngine.Proofs.Text.Blank

/-!
# Tokens of a text and of its parts

A *break* is a character that no token before it goes on with: white space, a bracket, a comma or a
colon.  The tokens of a text and of what stands behind a break are the tokens of the two parts
(`tokens_append`); white space at the end has no tokens (`tokens_append_blank`); and where a text
stands does not change what its tokens are (`tokens_offset`).
-/

namespace TemplateEngine

/-! ### Breaks -/

/-- No token that stands before the character goes on with it. -/
def isBreak (c : Char) : Bool :=
  Text.isBlank c || ['(', ')', '[', ']', '\x7b', '\x7d', ',', ':'].contains c

/-- Nothing, or a text that begins with a break. -/
def Breaks (cs : List Char) : Prop := ∀ c ∈ cs.head?, isBreak c = true

theorem breaks_cons {c : Char} {cs : List Char} : Breaks (c :: cs) ↔ isBreak c = true := by
  simp [Breaks]

/-- A break is none of the characters that are no breaks. -/
theorem Breaks.head_ne {c d : Char} {cs : List Char} (h : Breaks (c :: cs))
    (hd : isBreak d = false) : c ≠ d := by
  rintro rfl
  rw [breaks_cons.mp h] at hd
  cases hd

theorem breaks_of_allBlank {cs : List Char} (h : Text.AllBlank cs) : Breaks cs := by
  intro c hc
  simp [isBreak, h c (List.mem_of_mem_head? hc)]

theorem isNamePart_of_isBreak {c : Char} (h : isBreak c = true) : Text.isNamePart c = false := by
  rcases Bool.or_eq_true .. ▸ h with hb | hb
  · exact Text.isNamePart_of_isBlank hb
  · have brackets : ['(', ')', '[', ']', '\x7b', '\x7d', ',', ':'].all
        (fun d => !Text.isNamePart d) = true := by decide
    simpa using List.all_eq_true.mp brackets c (List.contains_iff_mem.mp hb)

theorem isNamePart_of_isNameStart {c : Char} (h : Text.isNameStart c = true) :
    Text.isNamePart c = true := by
  simp only [Text.isNameStart, Bool.or_eq_true] at h
  rcases h with h | h <;> simp [Text.isNamePart, h]

theorem toNat_of_isDigit {c : Char} (h : c.isDigit = true) : 48 ≤ c.toNat ∧ c.toNat < 58 := by
  simp only [Char.isDigit, Bool.and_eq_true, decide_eq_true_eq, UInt32.le_iff_toNat_le] at h
  have h48 : '0'.val.toNat = 48 := rfl
  have h57 : '9'.val.toNat = 57 := rfl
  have hv : c.toNat = c.val.toNat := rfl
  omega

/-- Digits and the low line stand in names too. -/
theorem isNamePart_of_isDigitPart {c : Char} (h : Lexeme.isDigitPart c = true) :
    Text.isNamePart c = true := by
  simp only [Lexeme.isDigitPart, Bool.or_eq_true, beq_iff_eq] at h
  rcases h with h | rfl
  · have hc : c.toNat < 128 := by have := toNat_of_isDigit h; omega
    simp [Text.isNamePart, Text.isNumeric, hc, h]
  · decide

theorem isDigitPart_of_isBreak {c : Char} (h : isBreak c = true) :
    Lexeme.isDigitPart c = false := by
  refine Bool.eq_false_iff.mpr fun hd => ?_
  have hn := isNamePart_of_isBreak h
  rw [isNamePart_of_isDigitPart hd] at hn
  cases hn

theorem isDigit_of_isBreak {c : Char} (h : isBreak c = true) : c.isDigit = false :=
  (Bool.or_eq_false_iff.mp (isDigitPart_of_isBreak h)).1

theorem takeWhile_append_breaks {p : Char → Bool} (hp : ∀ c, isBreak c = true → p c = false)
    (cs : List Char) {rest : List Char} (h : Breaks rest) :
    (cs ++ rest).takeWhile p = cs.takeWhile p := by
  induction cs with
  | nil =>
    cases rest with
    | nil => rfl
    | cons c rest => simp [hp c (h c rfl)]
  | cons c cs ih => by_cases hc : p c <;> simp [hc, ih]

namespace Lexeme

/-! ### Numbers before a break -/

theorem fractionText_append {cs rest : List Char} (h : Breaks rest) :
    fractionText (cs ++ rest) = fractionText cs := by
  match cs, rest with
  | [], [] => rfl
  | [], c :: rest => simp [fractionText, h.head_ne (d := '.') (by decide)]
  | [c], [] => rfl
  | [c], d :: rest =>
    have hd := isDigit_of_isBreak (breaks_cons.mp h)
    by_cases hc : c = '.' <;> simp [fractionText, hc, hd]
  | c :: d :: cs, rest =>
    by_cases hc : c = '.'
    · simp [fractionText, hc, takeWhile_append_breaks (fun _ => isDigitPart_of_isBreak) _ h]
    · simp [fractionText, hc]

/-- The sign at the start of an exponent, and what follows it. -/
theorem signText_append (cs : List Char) {rest : List Char} (h : Breaks rest) :
    signText (cs ++ rest) = signText cs ∧
      (cs ++ rest).drop (signText cs).length = cs.drop (signText cs).length ++ rest := by
  match cs, rest with
  | [], [] => exact ⟨rfl, rfl⟩
  | [], c :: rest =>
    simp [signText, h.head_ne (d := '+') (by decide), h.head_ne (d := '-') (by decide)]
  | c :: cs, rest =>
    by_cases hp : c = '+'
    · subst hp; exact ⟨rfl, rfl⟩
    · by_cases hm : c = '-'
      · subst hm; exact ⟨rfl, rfl⟩
      · simp [signText, hp, hm]

theorem exponentText_append {cs rest : List Char} (h : Breaks rest) :
    exponentText (cs ++ rest) = exponentText cs := by
  match cs, rest with
  | [], [] => rfl
  | [], e :: rest =>
    have he : (e == 'e' || e == 'E') = false := by
      simp [h.head_ne (d := 'e') (by decide), h.head_ne (d := 'E') (by decide)]
    simp only [List.nil_append, exponentText, he, Bool.false_and]
    split <;> rfl
  | e :: cs, rest =>
    obtain ⟨hs, hd⟩ := signText_append cs h
    simp only [List.cons_append, exponentText, hs, hd]
    cases cs.drop (signText cs).length with
    | nil =>
      cases rest with
      | nil => rfl
      | cons d rest => simp [isDigit_of_isBreak (breaks_cons.mp h)]
    | cons d ds => simp [takeWhile_append_breaks (fun _ => isDigitPart_of_isBreak) _ h]

theorem fractionText_isPrefix (cs : List Char) : fractionText cs <+: cs := by
  unfold fractionText
  split
  · split
    · simpa using List.takeWhile_prefix isDigitPart
    · exact List.nil_prefix
  · exact List.nil_prefix

theorem signText_isPrefix (cs : List Char) : signText cs <+: cs := by
  unfold signText
  split
  · simp
  · simp
  · exact List.nil_prefix

/-- A part at the start of a text, and a part at the start of what follows it. -/
theorem append_isPrefix {a b cs : List Char} (ha : a <+: cs) (hb : b <+: cs.drop a.length) :
    a ++ b <+: cs := by
  rw [List.prefix_iff_eq_append] at ha
  rw [← ha]
  exact (List.prefix_append_right_inj a).mpr hb

theorem exponentText_isPrefix (cs : List Char) : exponentText cs <+: cs := by
  unfold exponentText
  split
  · next e cs =>
    dsimp only
    split
    · next d ds hd =>
      split
      · refine List.cons_prefix_cons.mpr ⟨rfl, append_isPrefix (signText_isPrefix cs) ?_⟩
        rw [hd]
        exact List.cons_prefix_cons.mpr ⟨rfl, List.takeWhile_prefix isDigitPart⟩
      · exact List.nil_prefix
    · exact List.nil_prefix
  · exact List.nil_prefix

theorem numberText_append {cs rest : List Char} (h : Breaks rest) :
    numberText (cs ++ rest) = numberText cs := by
  have hw := takeWhile_append_breaks (fun _ => isDigitPart_of_isBreak) cs h
  have hpre : cs.takeWhile isDigitPart <+: cs := List.takeWhile_prefix isDigitPart
  have hl := hpre.length_le
  have hf := (fractionText_isPrefix (cs.drop (cs.takeWhile isDigitPart).length)).length_le
  simp only [numberText, hw, List.drop_append_of_le_length hl, fractionText_append h,
    List.drop_append_of_le_length hf, exponentText_append h]

/-- The parts of a number, one behind the other, begin the text. -/
theorem numberText_isPrefix (cs : List Char) :
    (numberText cs).1 ++ (numberText cs).2.1 ++ (numberText cs).2.2 <+: cs := by
  have hw := List.takeWhile_prefix isDigitPart (l := cs)
  rw [List.append_assoc]
  refine append_isPrefix hw (append_isPrefix (fractionText_isPrefix _) (exponentText_isPrefix _))

/-- A character of a number or a name. -/
def isPlain (c : Char) : Bool := Text.isNamePart c || ['.', '+', '-'].contains c

theorem isPlain_of_isDigitPart {c : Char} (h : isDigitPart c = true) : isPlain c = true := by
  simp [isPlain, isNamePart_of_isDigitPart h]

theorem isPlain_of_mem_fractionText {c : Char} {cs : List Char} (h : c ∈ fractionText cs) :
    isPlain c = true := by
  unfold fractionText at h
  split at h
  · next d cs =>
    split at h
    · next hd =>
      simp only [List.mem_cons] at h
      rcases h with rfl | rfl | h
      · decide
      · exact isPlain_of_isDigitPart (by simp [isDigitPart, hd])
      · exact isPlain_of_isDigitPart (List.mem_takeWhile_imp h)
    · simp at h
  · simp at h

theorem isPlain_of_mem_signText {c : Char} {cs : List Char} (h : c ∈ signText cs) :
    isPlain c = true := by
  unfold signText at h
  split at h
  · rw [List.mem_singleton.mp h]; decide
  · rw [List.mem_singleton.mp h]; decide
  · simp at h

theorem isPlain_of_mem_exponentText {c : Char} {cs : List Char} (h : c ∈ exponentText cs) :
    isPlain c = true := by
  unfold exponentText at h
  split at h
  · next e cs =>
    dsimp only at h
    split at h
    · split at h
      · next he =>
        simp only [List.cons_append, List.mem_cons, List.mem_append] at h
        simp only [Bool.and_eq_true, Bool.or_eq_true, beq_iff_eq] at he
        rcases h with rfl | h | rfl | h
        · rcases he.1 with rfl | rfl <;> decide
        · exact isPlain_of_mem_signText h
        · exact isPlain_of_isDigitPart (by simp [isDigitPart, he.2])
        · exact isPlain_of_isDigitPart (List.mem_takeWhile_imp h)
      · simp at h
    · simp at h
  · simp at h

theorem isPlain_of_mem_numberText {c : Char} {cs : List Char}
    (h : c ∈ (numberText cs).1 ++ (numberText cs).2.1 ++ (numberText cs).2.2) :
    isPlain c = true := by
  simp only [List.mem_append] at h
  rcases h with (h | h) | h
  · exact isPlain_of_isDigitPart (List.mem_takeWhile_imp h)
  · exact isPlain_of_mem_fractionText h
  · exact isPlain_of_mem_exponentText h

/-! ### Strings -/

theorem readString?_cons (q : Char) {c : Char} (hc : c ≠ '\\') (cs : List Char) :
    readString? q (c :: cs) =
      if c == q then some ([], 1) else (readString? q cs).map fun (s, n) => (c :: s, n + 1) :=
  readString?.eq_4 q c cs (fun h => absurd h hc) (fun _ _ h => absurd h hc)

/-- A text is read up to a closing quote by escapes and single characters. -/
theorem string_induction {motive : List Char → Prop} (nil : motive []) (lone : motive ['\\'])
    (escape : ∀ c cs, motive cs → motive ('\\' :: c :: cs))
    (plain : ∀ c cs, c ≠ '\\' → motive cs → motive (c :: cs)) : ∀ cs, motive cs
  | [] => nil
  | [c] => by
    by_cases hc : c = '\\'
    · exact hc ▸ lone
    · exact plain c [] hc nil
  | c :: d :: cs => by
    by_cases hc : c = '\\'
    · exact hc ▸ escape d cs (string_induction nil lone escape plain cs)
    · exact plain c (d :: cs) hc (string_induction nil lone escape plain (d :: cs))

/-- What follows the closing quote is not looked at. -/
theorem readString?_append {q : Char} {cs s : List Char} {n : Nat}
    (h : readString? q cs = some (s, n)) (rest : List Char) :
    readString? q (cs ++ rest) = some (s, n) := by
  induction cs using string_induction generalizing s n with
  | nil => simp [readString?] at h
  | lone => simp [readString?] at h
  | escape c cs ih =>
    rw [readString?, Option.map_eq_some_iff] at h
    obtain ⟨⟨s', n'⟩, hs, he⟩ := h
    simp only [List.cons_append, readString?, ih hs, Option.map_some, he]
  | plain c cs hc ih =>
    rw [readString?_cons q hc] at h
    rw [List.cons_append, readString?_cons q hc]
    split at h
    · next hq => rw [if_pos hq, h]
    · next hq =>
      obtain ⟨⟨s', n'⟩, hs, he⟩ := Option.map_eq_some_iff.mp h
      rw [if_neg hq, ih hs, Option.map_some, he]

theorem length_of_readString? {q : Char} {cs s : List Char} {n : Nat}
    (h : readString? q cs = some (s, n)) : n ≤ cs.length := by
  induction cs using string_induction generalizing s n with
  | nil => simp [readString?] at h
  | lone => simp [readString?] at h
  | escape c cs ih =>
    rw [readString?, Option.map_eq_some_iff] at h
    obtain ⟨⟨s', n'⟩, hs, he⟩ := h
    cases he
    simpa using ih hs
  | plain c cs hc ih =>
    rw [readString?_cons q hc] at h
    split at h
    · cases h
      simp
    · obtain ⟨⟨s', n'⟩, hs, he⟩ := Option.map_eq_some_iff.mp h
      cases he
      simpa using ih hs

/-- White space closes no string. -/
theorem readString?_of_allBlank {q : Char} (hq : isQuote q = true) {bs : List Char}
    (hb : Text.AllBlank bs) : readString? q bs = none := by
  induction bs with
  | nil => rfl
  | cons b bs ih =>
    have hbb : Text.isBlank b = true := hb b (by simp)
    have hslash : b ≠ '\\' := by
      rintro rfl
      exact absurd hbb (by decide)
    have hquote : (b == q) = false := by
      refine beq_eq_false_iff_ne.mpr ?_
      rintro rfl
      simp only [isQuote, Bool.or_eq_true, beq_iff_eq] at hq
      rcases hq with rfl | rfl <;> exact absurd hbb (by decide)
    rw [readString?_cons q hslash, hquote, ih fun c hc => hb c (by simp [hc])]
    rfl

theorem readString?_append_blank {q : Char} (hq : isQuote q = true) {cs bs : List Char}
    (hb : Text.AllBlank bs) (h : readString? q cs = none) : readString? q (cs ++ bs) = none := by
  induction cs using string_induction with
  | nil => exact readString?_of_allBlank hq hb
  | lone =>
    cases bs with
    | nil => rfl
    | cons b bs =>
      have ht := readString?_of_allBlank hq fun c hc => hb c (List.mem_cons_of_mem b hc)
      simp [readString?, ht]
  | escape c cs ih =>
    rw [readString?, Option.map_eq_none_iff] at h
    simp [readString?, ih h]
  | plain c cs hc ih =>
    rw [readString?_cons q hc] at h
    rw [List.cons_append, readString?_cons q hc]
    split at h
    · cases h
    · next hn => rw [if_neg hn, ih (Option.map_eq_none_iff.mp h)]; rfl

end Lexeme

/-! ### Symbols -/

namespace Symbol

/-- A symbol is one character, or two of which the second is no break. -/
theorem chars_cases (s : Symbol) :
    (∃ a, s.chars = [a]) ∨ ∃ a b, s.chars = [a, b] ∧ isBreak b = false := by
  cases s
  case starStar | slashSlash | shl | shr | le | ge | eqEq | bangEq | ltGt | barBar | dotDot =>
    exact .inr ⟨_, _, rfl, by decide⟩
  all_goals exact .inl ⟨_, rfl⟩

theorem leading?_append (c : Char) (cs : List Char) {rest : List Char} (h : Breaks rest) :
    leading? (c :: (cs ++ rest)) = leading? (c :: cs) := by
  unfold leading?
  congr 1
  funext s
  rcases chars_cases s with ⟨a, hs⟩ | ⟨a, b, hs, hb⟩
  · simp [hs, List.isPrefixOf]
  · match cs, rest with
    | d :: cs, _ => simp [hs, List.isPrefixOf]
    | [], [] => rfl
    | [], d :: rest => simp [hs, List.isPrefixOf, (h.head_ne hb).symm]

theorem prefix_of_leading? {cs : List Char} {s : Symbol} (h : leading? cs = some s) :
    s.chars <+: cs := by
  have hp := List.find?_some h
  exact List.isPrefixOf_iff_prefix.mp hp

end Symbol

/-! ### Single tokens -/

namespace Lexeme

/-- A number is as long as its parts, and no symbol. -/
theorem of_readNumber {offset : Nat} {cs : List Char} {l : Lexeme} {n : Nat}
    (h : readNumber offset cs = .ok (l, n)) :
    n = ((numberText cs).1 ++ (numberText cs).2.1 ++ (numberText cs).2.2).length ∧
      l ≠ .stop ∧ ∀ s, l ≠ .word (.symbol s) := by
  unfold readNumber at h
  dsimp only at h
  split at h
  · split at h <;> cases h
    exact ⟨rfl, nofun, nofun⟩
  · cases h
    exact ⟨rfl, nofun, nofun⟩

/-- A number has plain characters; its first digit is counted apart. -/
theorem plain_of_readNumber {offset : Nat} {c : Char} {cs : List Char} {l : Lexeme} {n : Nat}
    (hd : c.isDigit = true) (h : readNumber offset (c :: cs) = .ok (l, n)) :
    n - 1 ≤ cs.length ∧ (∀ d ∈ c :: cs.take (n - 1), isPlain d = true) ∧
      l ≠ .stop ∧ ∀ s, l ≠ .word (.symbol s) := by
  obtain ⟨rfl, hl⟩ := of_readNumber h
  have hpre := numberText_isPrefix (c :: cs)
  have hplain := fun d => @isPlain_of_mem_numberText d (c :: cs)
  obtain ⟨ds, hds⟩ : ∃ ds, (numberText (c :: cs)).1 ++ (numberText (c :: cs)).2.1 ++
      (numberText (c :: cs)).2.2 = c :: ds := by
    simp [numberText, isDigitPart, hd]
  rw [hds] at hpre hplain ⊢
  obtain ⟨-, hpre⟩ := List.cons_prefix_cons.mp hpre
  refine ⟨by simpa using hpre.length_le, ?_, hl⟩
  simpa [← List.prefix_iff_eq_take.mp hpre] using hplain

/-- A name has plain characters. -/
theorem plain_of_name {c : Char} {cs : List Char} (hc : Text.isNameStart c = true) {n : Nat}
    (hn : n = (cs.takeWhile Text.isNamePart).length) :
    n ≤ cs.length ∧ ∀ d ∈ c :: cs.take n, isPlain d = true := by
  subst hn
  have hpre := List.takeWhile_prefix Text.isNamePart (l := cs)
  refine ⟨hpre.length_le, ?_⟩
  rw [← List.prefix_iff_eq_take.mp hpre]
  intro d hd
  rcases List.mem_cons.mp hd with rfl | hd
  · simp [isPlain, isNamePart_of_isNameStart hc]
  · simp [isPlain, List.mem_takeWhile_imp hd]

/-- A symbol has a first character, which is counted apart. -/
theorem chars_of_leading? {c : Char} {cs : List Char} {s : Symbol}
    (hs : Symbol.leading? (c :: cs) = some s) :
    c :: cs.take (s.chars.length - 1) = s.chars ∧ s.chars.length - 1 ≤ cs.length := by
  have hpre := Symbol.prefix_of_leading? hs
  have hlen := hpre.length_le
  rw [List.prefix_iff_eq_take] at hpre
  obtain ⟨m, hm⟩ : ∃ m, s.chars.length = m + 1 := by
    rcases s.chars_cases with ⟨a, ha⟩ | ⟨a, b, ha, -⟩ <;> simp [ha]
  constructor
  · rw [hpre, hm]
    simp
  · simp only [List.length_cons] at hlen
    omega

/-- What a token can be: a number or a name of plain characters, a string, or a symbol. -/
theorem read_cases {offset : Nat} {c : Char} {cs : List Char} {l : Lexeme} {n : Nat}
    (h : read offset c cs = .ok (l, n)) :
    (n ≤ cs.length ∧ (∀ d ∈ c :: cs.take n, isPlain d = true) ∧
      l ≠ .stop ∧ ∀ s, l ≠ .word (.symbol s)) ∨
    (isQuote c = true ∧ ∃ s, readString? c cs = some (s, n) ∧ l = .str (String.ofList s)) ∨
    ∃ s : Symbol, c :: cs.take n = s.chars ∧ n ≤ cs.length ∧ l = .word (.symbol s) := by
  unfold read at h
  split at h
  · next hd =>
    obtain ⟨⟨l', m⟩, hm, he⟩ := bind_eq_ok_iff.mp h
    cases he
    exact .inl (plain_of_readNumber hd hm)
  · split at h
    · next hq =>
      split at h
      · next s n' hs =>
        cases h
        exact .inr (.inl ⟨hq, s, hs, rfl⟩)
      · cases h
    · split at h
      · next hc =>
        cases h
        obtain ⟨hn, hplain⟩ := plain_of_name hc rfl
        exact .inl ⟨hn, hplain, nofun, nofun⟩
      · split at h
        · next s hs =>
          cases h
          obtain ⟨hchars, hn⟩ := chars_of_leading? hs
          exact .inr (.inr ⟨s, hchars, hn, rfl⟩)
        · cases h

/-- A token does not depend on what stands behind a break. -/
theorem read_append {offset : Nat} {c : Char} {cs rest : List Char} (hr : Breaks rest)
    (hs : isQuote c = true → readString? c (cs ++ rest) = readString? c cs) :
    read offset c (cs ++ rest) = read offset c cs := by
  unfold read
  rw [← List.cons_append]
  simp only [readNumber, numberText_append hr]
  split
  · rfl
  · split
    · next hq => rw [hs hq]
    · rw [takeWhile_append_breaks (fun _ => isNamePart_of_isBreak) _ hr, List.cons_append,
        Symbol.leading?_append _ _ hr]

/-- A token that is read is read in front of every break. -/
theorem read_append_of_ok {offset : Nat} {c : Char} {cs rest : List Char} {x : Lexeme × Nat}
    (hr : Breaks rest) (h : read offset c cs = .ok x) : read offset c (cs ++ rest) = .ok x := by
  rw [read_append hr, h]
  intro hq
  cases hs : readString? c cs with
  | some sn => exact readString?_append hs rest
  | none =>
    have hd : c.isDigit = false := by
      simp only [isQuote, Bool.or_eq_true, beq_iff_eq] at hq
      rcases hq with rfl | rfl <;> rfl
    simp [read, hd, hq, hs] at h

/-- White space behind a token changes nothing. -/
theorem read_append_blank {offset : Nat} {c : Char} {cs bs : List Char} (hb : Text.AllBlank bs) :
    read offset c (cs ++ bs) = read offset c cs := by
  refine read_append (breaks_of_allBlank hb) fun hq => ?_
  cases hs : readString? c cs with
  | some sn => exact readString?_append hs bs
  | none => exact readString?_append_blank hq hb hs

theorem ne_stop_of_read {offset : Nat} {c : Char} {cs : List Char} {l : Lexeme} {n : Nat}
    (h : read offset c cs = .ok (l, n)) : l ≠ .stop := by
  rcases read_cases h with ⟨-, -, h, -⟩ | ⟨-, s, -, rfl⟩ | ⟨s, -, -, rfl⟩
  · exact h
  · exact nofun
  · exact nofun

/-- Where a token stands does not change what it is. -/
theorem read_offset {offset : Nat} {c : Char} {cs : List Char} {x : Lexeme × Nat}
    (h : read offset c cs = .ok x) (offset' : Nat) : read offset' c cs = .ok x := by
  unfold read at h ⊢
  split at h
  · next hd =>
    obtain ⟨ln, hm, he⟩ := bind_eq_ok_iff.mp h
    have hm' : readNumber offset' (c :: cs) = .ok ln := by
      unfold readNumber at hm ⊢
      dsimp only at hm ⊢
      split at hm
      · next hi =>
        rw [if_pos hi]
        split at hm
        · exact hm
        · cases hm
      · next hi => rw [if_neg hi, hm]
    rw [if_pos hd, hm']
    exact he
  · next hd =>
    rw [if_neg hd]
    split at h
    · next hq =>
      rw [if_pos hq]
      split at h
      · exact h
      · cases h
    · next hq =>
      rw [if_neg hq]
      split at h
      · next hn => rw [if_pos hn, h]
      · next hn =>
        rw [if_neg hn]
        split at h
        · exact h
        · cases h

theorem length_of_read {offset : Nat} {c : Char} {cs : List Char} {l : Lexeme} {n : Nat}
    (h : read offset c cs = .ok (l, n)) : n ≤ cs.length := by
  rcases read_cases h with ⟨h, -⟩ | ⟨-, s, hs, -⟩ | ⟨-, -, h, -⟩
  · exact h
  · exact length_of_readString? hs
  · exact h

end Lexeme

/-! ### All tokens -/

namespace TokenStream

@[simp] theorem tokens_nil (offset : Nat) : tokens offset [] = .ok [] := by simp [tokens]

theorem tokens_blank {c : Char} (hc : Text.isBlank c = true) (offset : Nat) (cs : List Char) :
    tokens offset (c :: cs) = tokens (offset + c.utf8Size) cs := by
  rw [tokens, if_pos hc]

theorem tokens_token {c : Char} (hc : Text.isBlank c = false) (offset : Nat) (cs : List Char) :
    tokens offset (c :: cs) = Lexeme.read offset c cs >>= fun (l, n) =>
      (tokens (offset + Text.byteLength (c :: cs.take n)) (cs.drop n)).map (⟨l, offset⟩ :: ·) := by
  rw [tokens, if_neg (by simp [hc])]
  rfl

/-- White space has no tokens. -/
theorem tokens_of_allBlank {cs : List Char} (h : Text.AllBlank cs) (offset : Nat) :
    tokens offset cs = .ok [] := by
  induction cs generalizing offset with
  | nil => simp
  | cons c cs ih => rw [tokens_blank (h c (by simp)), ih fun d hd => h d (by simp [hd])]

theorem tokens_blank_append {bs : List Char} (h : Text.AllBlank bs) (offset : Nat)
    (cs : List Char) : tokens offset (bs ++ cs) = tokens (offset + Text.byteLength bs) cs := by
  induction bs generalizing offset with
  | nil => rfl
  | cons b bs ih =>
    rw [List.cons_append, tokens_blank (h b (by simp)), ih fun d hd => h d (by simp [hd])]
    simp [Text.byteLength, Nat.add_assoc]

/-- A text is read token by token; a token takes some of the characters behind its first. -/
theorem text_induction {motive : List Char → Prop} (nil : motive [])
    (blank : ∀ c cs, Text.isBlank c = true → motive cs → motive (c :: cs))
    (token : ∀ c cs, Text.isBlank c = false → (∀ n, motive (cs.drop n)) → motive (c :: cs)) :
    ∀ cs, motive cs
  | [] => nil
  | c :: cs => by
    cases hc : Text.isBlank c with
    | true => exact blank c cs hc (text_induction nil blank token cs)
    | false => exact token c cs hc fun n => text_induction nil blank token (cs.drop n)
termination_by cs => cs.length
decreasing_by all_goals simp; try omega

/-- The first token of a text, and the tokens behind it. -/
theorem tokens_cons_ok {offset : Nat} {c : Char} {cs : List Char} {ts : List Token}
    (hc : Text.isBlank c = false) (h : tokens offset (c :: cs) = .ok ts) :
    ∃ l n more, Lexeme.read offset c cs = .ok (l, n) ∧
      tokens (offset + Text.byteLength (c :: cs.take n)) (cs.drop n) = .ok more ∧
      ts = ⟨l, offset⟩ :: more := by
  rw [tokens_token hc] at h
  obtain ⟨⟨l, n⟩, hl, ht⟩ := bind_eq_ok_iff.mp h
  obtain ⟨more, hm, he⟩ := map_eq_ok_iff.mp ht
  exact ⟨l, n, more, hl, hm, he.symm⟩

/-- The tokens of a text and of what stands behind a break. -/
theorem tokens_append {offset : Nat} {cs rest : List Char} {ts : List Token} (hr : Breaks rest)
    (h : tokens offset cs = .ok ts) :
    tokens offset (cs ++ rest) = (tokens (offset + Text.byteLength cs) rest).map (ts ++ ·) := by
  induction cs using text_induction generalizing offset ts with
  | nil =>
    cases (tokens_nil offset).symm.trans h
    cases ht : tokens offset rest <;> simp [ht, Except.map]
  | blank c cs hc ih =>
    rw [tokens_blank hc] at h
    rw [List.cons_append, tokens_blank hc, ih h, Text.byteLength_cons, Nat.add_assoc]
  | token c cs hc ih =>
    obtain ⟨l, n, more, hl, hm, rfl⟩ := tokens_cons_ok hc h
    have hn := Lexeme.length_of_read hl
    have hb : Text.byteLength cs = Text.byteLength (cs.take n) + Text.byteLength (cs.drop n) := by
      rw [← Text.byteLength_append, List.take_append_drop]
    have hi := ih n hm
    simp only [Text.byteLength_cons, Nat.add_assoc] at hi
    rw [List.cons_append, tokens_token hc, Lexeme.read_append_of_ok hr hl]
    simp only [Bind.bind, Except.bind, List.take_append_of_le_length hn,
      List.drop_append_of_le_length hn, hi, Text.byteLength_cons, hb]
    cases tokens (offset + (c.utf8Size + (Text.byteLength (cs.take n) +
      Text.byteLength (cs.drop n)))) rest <;> rfl

/-- White space behind a text has no tokens. -/
theorem tokens_append_blank {bs : List Char} (hb : Text.AllBlank bs) (offset : Nat)
    (cs : List Char) : tokens offset (cs ++ bs) = tokens offset cs := by
  induction cs using text_induction generalizing offset with
  | nil => simp [tokens_of_allBlank hb]
  | blank c cs hc ih => rw [List.cons_append, tokens_blank hc, tokens_blank hc, ih]
  | token c cs hc ih =>
    rw [List.cons_append, tokens_token hc, tokens_token hc, Lexeme.read_append_blank hb]
    cases hl : Lexeme.read offset c cs with
    | error e => rfl
    | ok x =>
      have hn := Lexeme.length_of_read (l := x.1) (n := x.2) hl
      simp only [Bind.bind, Except.bind, List.take_append_of_le_length hn,
        List.drop_append_of_le_length hn, ih]

/-- Trimming takes no token away. -/
theorem tokens_trim (offset : Nat) (cs : List Char) :
    tokens (offset + Text.byteLength (cs.takeWhile Text.isBlank)) (Text.trim cs) =
      tokens offset cs := by
  obtain ⟨trail, ht, he⟩ := Text.exists_trim cs
  rw [← tokens_append_blank ht, ← tokens_blank_append (Text.allBlank_takeWhile cs), ← he]

/-- Where a text stands changes the offsets of its tokens and nothing else. -/
theorem tokens_offset {offset : Nat} {cs : List Char} {ts : List Token}
    (h : tokens offset cs = .ok ts) (offset' : Nat) :
    ∃ ts', tokens offset' cs = .ok ts' ∧ ts'.map Token.lexeme = ts.map Token.lexeme := by
  induction cs using text_induction generalizing offset offset' ts with
  | nil =>
    cases (tokens_nil offset).symm.trans h
    exact ⟨[], tokens_nil offset', rfl⟩
  | blank c cs hc ih =>
    rw [tokens_blank hc] at h
    rw [tokens_blank hc]
    exact ih h _
  | token c cs hc ih =>
    obtain ⟨l, n, more, hl, hm, rfl⟩ := tokens_cons_ok hc h
    obtain ⟨more', hm', he⟩ := ih n hm (offset' + Text.byteLength (c :: cs.take n))
    refine ⟨⟨l, offset'⟩ :: more', ?_, by simp [he]⟩
    rw [tokens_token hc, Lexeme.read_offset hl]
    exact map_eq_ok_iff.mpr ⟨more', hm', rfl⟩

/-- Every token of a text is read at its offset. -/
theorem exists_read_of_mem_tokens {offset : Nat} {cs : List Char} {ts : List Token}
    (h : tokens offset cs = .ok ts) {t : Token} (ht : t ∈ ts) :
    ∃ c ds n, Lexeme.read t.offset c ds = .ok (t.lexeme, n) := by
  induction cs using text_induction generalizing offset ts with
  | nil =>
    cases (tokens_nil offset).symm.trans h
    cases ht
  | blank c cs hc ih =>
    rw [tokens_blank hc] at h
    exact ih h ht
  | token c cs hc ih =>
    obtain ⟨l, n, more, hl, hm, rfl⟩ := tokens_cons_ok hc h
    rcases List.mem_cons.mp ht with rfl | ht
    · exact ⟨c, cs, n, hl⟩
    · exact ih n hm ht

/-- The end is no token. -/
theorem ne_stop_of_mem_tokens {offset : Nat} {cs : List Char} {ts : List Token}
    (h : tokens offset cs = .ok ts) : ∀ t ∈ ts, t.lexeme ≠ .stop := by
  intro t ht
  obtain ⟨c, ds, n, hread⟩ := exists_read_of_mem_tokens h ht
  exact Lexeme.ne_stop_of_read hread

end TokenStream

/-- White space is no expression. -/
theorem Expr.parse_of_allBlank (mode : Mode) {cs : List Char} (h : Text.AllBlank cs) (base : Nat) :
    ∃ e, Expr.parse mode (String.ofList cs) base = .error e := by
  have hp : ∀ stop, Parse.expr mode.grammar ⟨[], stop⟩ =
      .error (.parse (.unexpected "end of expression") stop) := by
    intro stop
    cases mode <;> rfl
  refine ⟨.parse (.unexpected "end of expression") (base + Text.byteLength cs), ?_⟩
  simp only [Expr.parse, Parse.whole, TokenStream.ofString, String.toList_ofList,
    TokenStream.tokens_of_allBlank h, Bind.bind, Except.bind, pure, Except.pure, StateT.run,
    StateT.bind, hp]

end TemplateEngine
