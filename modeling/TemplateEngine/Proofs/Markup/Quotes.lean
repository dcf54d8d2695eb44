import TemplateEngine.Proofs.Markup.Failures
import TemplateEngine.Proofs.Markup.Registered
import TemplateEngine.Proofs.Markup.Sources

/-!
# Strings in templates and in expressions

Strings are recognised twice: when the end of a tag or an output is searched for, and when its
source is cut into tokens.  Both follow the quotes of a text in the same way (`quoteAfter`).  The
end is found outside of strings, and neither trim markers nor white space nor the name of a tag has
quotes in it, so what is cut into tokens has all its strings closed.  No template fails with a
string that does not end (`parse_closed`).
-/

namespace TemplateEngine

/-! ### Quotes -/

/-- The quote of the string that a text ends in, if it ends in one.  The text begins in a string
with the quote `quote` or outside of strings.  In a string a backslash hides the character behind
it. -/
def quoteAfter (quote : Option Char) : List Char → Option Char
  | [] => quote
  | c :: cs =>
    match quote with
    | none => quoteAfter (if Lexeme.isQuote c then some c else none) cs
    | some q =>
      if c = '\\' then
        match cs with
        | [] => some q
        | _ :: cs => quoteAfter (some q) cs
      else quoteAfter (if c = q then none else some q) cs

/-- All strings in the text are closed. -/
def Closed (cs : List Char) : Prop := quoteAfter none cs = none

/-- There are no quotes in the text. -/
def Unquoted (cs : List Char) : Prop := ∀ c ∈ cs, Lexeme.isQuote c = false

theorem quoteAfter_none_cons (c : Char) (cs : List Char) :
    quoteAfter none (c :: cs) = quoteAfter (if Lexeme.isQuote c then some c else none) cs := by
  rw [quoteAfter.eq_def]

theorem quoteAfter_escape (q c : Char) (cs : List Char) :
    quoteAfter (some q) ('\\' :: c :: cs) = quoteAfter (some q) cs := by
  rw [quoteAfter.eq_def]
  exact if_pos rfl

theorem quoteAfter_some_cons (q : Char) {c : Char} (hc : c ≠ '\\') (cs : List Char) :
    quoteAfter (some q) (c :: cs) = quoteAfter (if c = q then none else some q) cs := by
  rw [quoteAfter.eq_def]
  exact if_neg hc

/-- Characters that are no quotes open no string. -/
theorem quoteAfter_unquoted_append {cs : List Char} (h : Unquoted cs) (ds : List Char) :
    quoteAfter none (cs ++ ds) = quoteAfter none ds := by
  induction cs with
  | nil => rfl
  | cons c cs ih =>
    rw [List.cons_append, quoteAfter_none_cons, h c (by simp)]
    exact ih fun d hd => h d (by simp [hd])

/-- Characters that are no quotes close no string. -/
theorem quoteAfter_unquoted {q : Char} (hq : Lexeme.isQuote q = true) {cs : List Char}
    (h : Unquoted cs) : quoteAfter (some q) cs = some q := by
  induction cs using Lexeme.string_induction with
  | nil => rfl
  | lone => rfl
  | escape c cs ih => rw [quoteAfter_escape, ih fun d hd => h d (by simp [hd])]
  | plain c cs hc ih =>
    have hne : c ≠ q := by
      rintro rfl
      rw [h c (by simp)] at hq
      cases hq
    rw [quoteAfter_some_cons q hc, if_neg hne, ih fun d hd => h d (by simp [hd])]

/-- A string that is open at the end of a text is open behind more characters that are no quotes. -/
theorem quoteAfter_append_unquoted {p : Option Char} (hp : ∀ q ∈ p, Lexeme.isQuote q = true)
    {ds : List Char} (hd : Unquoted ds) {cs : List Char} (h : quoteAfter p (cs ++ ds) = none) :
    quoteAfter p cs = none := by
  induction hl : cs.length using Nat.strong_induction_on generalizing p cs with
  | h l ih =>
    subst hl
    cases p with
    | none =>
      cases cs with
      | nil => rfl
      | cons c cs =>
        rw [List.cons_append, quoteAfter_none_cons] at h
        rw [quoteAfter_none_cons]
        refine ih _ (by simp) ?_ h rfl
        intro q hq
        split at hq
        · next hc => cases hq; exact hc
        · cases hq
    | some q =>
      have hq := hp q rfl
      have hopen : ∀ {es : List Char}, Unquoted es → quoteAfter (some q) es ≠ none := by
        intro es he
        rw [quoteAfter_unquoted hq he]
        exact nofun
      match cs with
      | [] => exact absurd h (hopen hd)
      | c :: cs =>
        by_cases hc : c = '\\'
        · subst hc
          match cs with
          | [] =>
            refine absurd h (hopen ?_)
            exact List.forall_mem_cons.mpr ⟨by decide, hd⟩
          | d :: cs =>
            rw [List.cons_append, List.cons_append, quoteAfter_escape] at h
            rw [quoteAfter_escape]
            exact ih _ (by simp only [List.length_cons]; omega) hp h rfl
        · rw [List.cons_append, quoteAfter_some_cons q hc] at h
          rw [quoteAfter_some_cons q hc]
          refine ih _ (by simp) ?_ h rfl
          intro q' hq'
          split at hq'
          · cases hq'
          · exact hp q' hq'

/-- Characters that are no quotes may be taken away at both ends. -/
theorem Closed.of_append {lead cs trail : List Char} (h : Closed (lead ++ cs ++ trail))
    (hl : Unquoted lead) (ht : Unquoted trail) : Closed cs := by
  have h' := quoteAfter_append_unquoted (by simp) ht h
  rwa [quoteAfter_unquoted_append hl] at h'

theorem unquoted_of_allBlank {cs : List Char} (h : Text.AllBlank cs) : Unquoted cs := by
  intro c hc
  refine Bool.eq_false_iff.mpr fun hq => ?_
  have hb := h c hc
  simp only [Lexeme.isQuote, Bool.or_eq_true, beq_iff_eq] at hq
  rcases hq with rfl | rfl <;> exact absurd hb (by decide)

theorem isQuote_of_isPlain {c : Char} (h : Lexeme.isPlain c = true) : Lexeme.isQuote c = false := by
  refine Bool.eq_false_iff.mpr fun hq => ?_
  simp only [Lexeme.isQuote, Bool.or_eq_true, beq_iff_eq] at hq
  rcases hq with rfl | rfl <;> exact absurd h (by decide +kernel)

theorem unquoted_of_all {cs : List Char} (h : cs.all (fun c => !Lexeme.isQuote c) = true) :
    Unquoted cs := by
  simpa [Unquoted] using h

theorem Symbol.unquoted_chars (s : Symbol) : Unquoted s.chars :=
  unquoted_of_all (by cases s <;> decide)

theorem Closed.trim {cs : List Char} (h : Closed cs) : Closed (Text.trim cs) := by
  obtain ⟨trail, ht, he⟩ := Text.exists_trim cs
  rw [he, ← List.append_assoc] at h
  exact h.of_append (unquoted_of_allBlank (Text.allBlank_takeWhile cs)) (unquoted_of_allBlank ht)

/-! ### Tokens -/

/-- The error is no string without an end. -/
def Error.ClosesStrings (e : Error) : Prop := ∀ offset, e ≠ .parse .unterminatedString offset

theorem Error.closesStrings_parse {f : ParseFault} (h : f ≠ .unterminatedString) (offset : Nat) :
    (Error.parse f offset).ClosesStrings := by
  rintro o ⟨⟩
  exact h rfl

namespace Lexeme

/-- A string that is closed is read up to its closing quote. -/
theorem exists_readString? {q : Char} {cs : List Char} (h : quoteAfter (some q) cs = none) :
    ∃ s n, readString? q cs = some (s, n) ∧ Closed (cs.drop n) := by
  induction cs using string_induction with
  | nil => cases h
  | lone => cases h
  | escape c cs ih =>
    rw [quoteAfter_escape] at h
    obtain ⟨s, n, hs, hn⟩ := ih h
    exact ⟨unescape c ++ s, n + 2, by simp [readString?, hs], hn⟩
  | plain c cs hc ih =>
    rw [quoteAfter_some_cons q hc] at h
    rw [readString?_cons q hc]
    by_cases hq : c = q
    · rw [if_pos hq] at h
      exact ⟨[], 1, by simp [hq], h⟩
    · rw [if_neg hq] at h
      obtain ⟨s, n, hs, hn⟩ := ih h
      exact ⟨c :: s, n + 1, by simp [hq, hs], hn⟩

/-- A token is read, with the strings behind it closed, or the fault is another one. -/
theorem outcome_read {c : Char} {cs : List Char} (h : Closed (c :: cs)) (offset : Nat) :
    Outcome Error.ClosesStrings (fun x => Closed (cs.drop x.2)) (read offset c cs) := by
  rw [Closed, quoteAfter_none_cons] at h
  cases hread : read offset c cs with
  | ok x =>
    obtain ⟨l, n⟩ := x
    refine .ok ?_
    dsimp only
    have hbehind : Unquoted (c :: cs.take n) → Closed (cs.drop n) := by
      intro hu
      rw [hu c (by simp)] at h
      rw [← List.take_append_drop n cs] at h
      exact (quoteAfter_unquoted_append (fun d hd => hu d (by simp [hd])) _).symm.trans h
    rcases read_cases hread with ⟨-, hp, -⟩ | ⟨hq, s, hs, rfl⟩ | ⟨s, hs, -, -⟩
    · exact hbehind fun d hd => isQuote_of_isPlain (hp d hd)
    · rw [if_pos hq] at h
      obtain ⟨s', n', hs', hn⟩ := exists_readString? h
      cases hs.symm.trans hs'
      exact hn
    · exact hbehind (hs ▸ s.unquoted_chars)
  | error e =>
    refine .error ?_
    unfold read at hread
    split at hread
    · -- a number
      unfold readNumber at hread
      dsimp only at hread
      split at hread
      · split at hread
        · cases hread
        · cases hread
          exact Error.closesStrings_parse (by simp) _
      · cases hread
    · split at hread
      · next hq =>
        rw [if_pos hq] at h
        obtain ⟨s, n, hs, -⟩ := exists_readString? h
        rw [hs] at hread
        cases hread
      · split at hread
        · cases hread
        · split at hread
          · cases hread
          · cases hread
            exact Error.closesStrings_parse (by simp) _

end Lexeme

/-- A text whose strings are closed has tokens, or fails with another fault. -/
theorem TokenStream.outcome_tokens {cs : List Char} (h : Closed cs) (offset : Nat) :
    Outcome Error.ClosesStrings (fun _ => True) (tokens offset cs) := by
  induction cs using text_induction generalizing offset with
  | nil =>
    rw [tokens_nil]
    exact .ok trivial
  | blank c cs hc ih =>
    rw [tokens_blank hc]
    refine ih ?_ _
    have hlead : Unquoted [c] := unquoted_of_allBlank (by simpa [Text.AllBlank] using hc)
    exact (quoteAfter_unquoted_append hlead cs).symm.trans h
  | token c cs hc ih =>
    rw [tokens_token hc]
    refine (Lexeme.outcome_read h offset).bind fun x hx => ?_
    exact (ih x.2 hx _).map fun _ _ => trivial

/-- The tokens of a text whose strings are closed. -/
theorem tokenizes_of_closed {cs : List Char} (h : Closed cs) (base : Nat) :
    Markup.Tokenizes Error.ClosesStrings (fun _ => True) cs base := by
  refine ⟨?_, trivial⟩
  have houtcome := TokenStream.outcome_tokens h base
  cases htokens : TokenStream.tokens base cs with
  | ok ts => exact .ok (List.forall₂_same.mpr fun t _ => ⟨rfl, trivial⟩)
  | error e => exact .error (houtcome.of_error htokens)

namespace Markup

/-! ### Tags and outputs -/

/-- The end of a construct is found outside of strings. -/
theorem PassesOver.quoteAfter {close : List Char} {quote : Option Char} {depth : Nat}
    {body : List Char} (h : PassesOver close quote depth body) :
    TemplateEngine.quoteAfter quote body = none := by
  induction h with
  | done => rfl
  | escape c h ih => rw [quoteAfter_escape, ih]
  | quoted hc h ih =>
    rw [quoteAfter_some_cons _ hc]
    simpa only [beq_iff_eq] using ih
  | @plain c depth cs hc h ih =>
    have hpass : (passOver c depth).1 = if Lexeme.isQuote c then some c else none := by
      rw [passOver, Lexeme.isQuote]
      split
      · rfl
      · split
        · rfl
        · split <;> rfl
    rw [quoteAfter_none_cons, ← hpass, ih]

/-- Trim markers are no quotes. -/
theorem closed_source {raw : List Char} (h : Closed raw) : Closed (Inner.ofChars raw).source := by
  have hmarker : ∀ b : Bool, Unquoted (if b then ['-'] else []) := by
    intro b c hc
    split at hc
    · rw [List.mem_singleton.mp hc]
      decide
    · cases hc
  rw [← Inner.chars_ofChars raw] at h
  exact h.of_append (hmarker _) (hmarker _)

theorem Source.StandsIn.closed {offset : Nat} {cs before raw after : List Char} {d : Delimiter}
    {source : Source} (h : source.StandsIn offset cs d before raw after) : Closed source.text := by
  rw [h.source_eq]
  exact closed_source h.passes.quoteAfter

/-- A first word without quotes is taken away together with the white space around it. -/
theorem closed_rest {cs : List Char} (h : Closed cs) {offset : Nat} {w : Words}
    (hw : Words.ofChars cs offset = w) (hq : Unquoted w.first) : Closed w.rest := by
  obtain ⟨lead, gap, trail, hlead, hgap, htrail, rfl, -⟩ := Words.exists_split hw
  refine h.of_append ?_ (unquoted_of_allBlank htrail)
  intro c hc
  rcases List.mem_append.mp hc with hc | hc
  · exact (List.mem_append.mp hc).elim (unquoted_of_allBlank hlead c) (hq c)
  · exact unquoted_of_allBlank hgap c hc

/-- The head of a tag whose name has no quotes has all strings closed if its source has. -/
theorem closed_tagWords {mode : Mode} {source : Source} (h : Closed source.text) {w : Words}
    (ht : TagWords mode source.text source.base w) (hq : Unquoted w.first) : Closed w.rest := by
  cases ht with
  | plain hw _ => exact closed_rest h hw hq
  | @elseIf w v _ hw hf hv hi =>
    have helse : Unquoted w.first := by
      rw [hf]
      exact unquoted_of_all (by decide)
    have hif : Unquoted v.first := by
      rw [hi]
      exact unquoted_of_all (by decide)
    have hv' : Closed v.rest := closed_rest (closed_rest h hw helse) hv hif
    exact hv'

/-- The names of a reachable registry have no quotes. -/
theorem unquoted_of_get? {registry : Tag.Registry} (hr : registry.Reachable) {mode : Mode}
    {word : List Char} {d : Tag.Descriptor}
    (h : registry.get? (String.ofList word) mode = some d) : Unquoted word := by
  intro c hc
  have hname := isNamePart_of_isTagName (hr.admissible_of_get? h).1 c (by simpa using hc)
  exact isQuote_of_isPlain (by simp [Lexeme.isPlain, hname])

/-- All strings are closed in what the item gives to be cut into tokens: the source of an output,
and the head of a tag that is in the registry. -/
def Item.ClosesStrings (registry : Tag.Registry) (mode : Mode) : Item → Prop
  | .text _ => True
  | .output source => Closed source.text
  | .tag source =>
    let words := Forest.tagWords mode source
    (registry.get? (String.ofList words.first) mode).isSome = true → Closed words.rest

theorem closesStrings_of_mem_items {registry : Tag.Registry} (hr : registry.Reachable) (mode : Mode)
    {source : String} {ps : List Piece} (h : pieces source = .ok ps) :
    ∀ item ∈ items ps, item.ClosesStrings registry mode := by
  intro item hi
  cases item with
  | text cs => trivial
  | output s =>
    obtain ⟨before, raw, after, hs⟩ := exists_standsIn h hi rfl
    exact hs.closed
  | tag s =>
    obtain ⟨before, raw, after, hs⟩ := exists_standsIn h hi rfl
    intro hd
    obtain ⟨d, hd⟩ := Option.isSome_iff_exists.mp hd
    exact closed_tagWords hs.closed (tagWords_iff.mpr rfl) (unquoted_of_get? hr hd)

theorem Item.ClosesStrings.within {registry : Tag.Registry} {mode : Mode} {item : Item}
    (h : item.ClosesStrings registry mode) :
    item.Within registry mode Error.ClosesStrings fun _ => True := by
  cases item with
  | text cs => trivial
  | output s => exact ⟨trivial, tokenizes_of_closed h _⟩
  | tag s => exact ⟨trivial, fun hd => ⟨trivial, tokenizes_of_closed (h hd) _⟩⟩

/-- **Strings.**  No template fails with a string that does not end: all strings are closed in the
outputs and in the heads of tags that are cut into tokens. -/
theorem parse_closed (mode : Mode) (source : String) :
    (∀ offset, parse .standard mode source ≠ .error (.parse .unterminatedString offset)) ∧
    ∀ ps, pieces source = .ok ps → ∀ item ∈ items ps, item.ClosesStrings .standard mode := by
  have hitems : ∀ ps, pieces source = .ok ps → ∀ item ∈ items ps,
      item.ClosesStrings .standard mode :=
    fun ps hps => closesStrings_of_mem_items .standard mode hps
  refine ⟨fun offset herror => ?_, hitems⟩
  have houtcome : Outcome Error.ClosesStrings (fun _ => True) (parse .standard mode source) :=
    outcome_parse (P := fun _ => True) (fun f o hf _ => Error.closesStrings_parse hf o)
      (fun _ _ _ => trivial) fun ps hps item hi => (hitems ps hps item hi).within
  exact houtcome.of_error herror offset rfl

/-- An output and a tag with a closing delimiter and an escaped quote in strings. -/
theorem parse_closed_escape : ∃ ps,
    pieces "\x7b\x7b \"\x7d\x7d\" \x7d\x7d\x7b% echo \"%\x7d \\\" '\" %\x7d" = .ok ps ∧
      (∀ offset, parse .standard .python
        "\x7b\x7b \"\x7d\x7d\" \x7d\x7d\x7b% echo \"%\x7d \\\" '\" %\x7d" ≠
          .error (.parse .unterminatedString offset)) ∧
      ∀ item ∈ items ps, item.ClosesStrings .standard .python := by
  have hok : (pieces
      "\x7b\x7b \"\x7d\x7d\" \x7d\x7d\x7b% echo \"%\x7d \\\" '\" %\x7d").isOk = true := by
    decide +kernel
  obtain ⟨ps, hps⟩ := exists_of_isOk hok
  obtain ⟨hparse, hitems⟩ := parse_closed .python
    "\x7b\x7b \"\x7d\x7d\" \x7d\x7d\x7b% echo \"%\x7d \\\" '\" %\x7d"
  exact ⟨ps, hps, hparse, hitems ps hps⟩

end Markup

end TemplateEngine
