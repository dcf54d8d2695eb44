import TemplateEngine.Proofs.Expr.Balance
import TemplateEngine.Proofs.Expr.Texts
import TemplateEngine.Proofs.Markup.Ends
import TemplateEngine.Proofs.Tag.Reachable
import TemplateEngine.Template

/-!
# Expressions in templates

The end of a construct is searched for before its source is read, by a scan of its own that knows
strings and braces.  The tokens of an expression have balanced braces, so the scan finds no end in
them and is outside of strings and braces behind them (`findClose?_tokens`).  That makes every
expression the source of an output and the head of an `echo` tag (`parse_output`, `parse_echo`).
-/

namespace TemplateEngine.Markup

/-! ### The scan for the end of a construct -/

/-- The scan for a closing delimiter passes over the character. -/
def Inert (c : Char) : Prop := c ∉ ['\x27', '"', '\x7b', '\x7d', '%']

instance (c : Char) : Decidable (Inert c) := inferInstanceAs (Decidable (_ ∉ _))

theorem inert_of_isBlank {c : Char} (h : Text.isBlank c = true) : Inert c := by
  intro hc
  have special : ['\x27', '"', '\x7b', '\x7d', '%'].all (fun d => !Text.isBlank d) = true := by
    decide
  have hs := List.all_eq_true.mp special c hc
  rw [h] at hs
  cases hs

theorem inert_of_isPlain {c : Char} (h : Lexeme.isPlain c = true) : Inert c := by
  intro hc
  have special : ['\x27', '"', '\x7b', '\x7d', '%'].all (fun d => !Lexeme.isPlain d) = true := by
    decide +kernel
  have hs := List.all_eq_true.mp special c hc
  rw [h] at hs
  cases hs

theorem inert_of_all {cs : List Char} (h : cs.all (fun c => decide (Inert c)) = true) :
    ∀ c ∈ cs, Inert c :=
  fun c hc => of_decide_eq_true (List.all_eq_true.mp h c hc)

variable {d : Delimiter}

theorem findClose?_cons_inert (hd : d ≠ .comment) {c : Char} (hc : Inert c) (k : Nat)
    (cs : List Char) :
    findClose? d.closer none k (c :: cs) = (findClose? d.closer none k cs).map (· + 1) := by
  simp only [Inert, List.mem_cons, List.not_mem_nil, or_false, not_or] at hc
  obtain ⟨h₁, h₂, h₃, h₄, h₅⟩ := hc
  have hp : d.closer.isPrefixOf (c :: cs) = false := by
    cases d with
    | comment => exact absurd rfl hd
    | tag => simp [Delimiter.closer, List.isPrefixOf, Ne.symm h₅]
    | output => simp [Delimiter.closer, List.isPrefixOf, Ne.symm h₄]
  simp [findClose?, hp, h₁, h₂, h₃, h₄]

theorem findClose?_append_inert (hd : d ≠ .comment) {cs : List Char}
    (hc : ∀ c ∈ cs, Inert c) (k : Nat) (rest : List Char) :
    findClose? d.closer none k (cs ++ rest) =
      (findClose? d.closer none k rest).map (· + cs.length) := by
  induction cs with
  | nil => simp
  | cons c cs ih =>
    rw [List.cons_append, findClose?_cons_inert hd (hc c (by simp)),
      ih fun c h => hc c (by simp [h])]
    cases findClose? d.closer none k rest <;> simp [Nat.add_assoc]

/-- In a string the scan goes on to the closing quote. -/
theorem findClose?_string (close : List Char) {q : Char} {cs s : List Char} {n : Nat}
    (h : Lexeme.readString? q cs = some (s, n)) (k : Nat) (rest : List Char) :
    findClose? close (some q) k (cs ++ rest) =
      (findClose? close none k (cs.drop n ++ rest)).map (· + n) := by
  induction cs using Lexeme.string_induction generalizing s n with
  | nil => simp [Lexeme.readString?] at h
  | lone => simp [Lexeme.readString?] at h
  | escape c cs ih =>
    rw [Lexeme.readString?, Option.map_eq_some_iff] at h
    obtain ⟨⟨s', n'⟩, hs, he⟩ := h
    cases he
    simp [findClose?, ih hs, Function.comp_def, Nat.add_assoc]
  | plain c cs hc ih =>
    rw [Lexeme.readString?_cons q hc] at h
    rw [List.cons_append, findClose?_quoted close q hc]
    split at h
    · next hq =>
      cases h
      simp [hq]
    · next hq =>
      obtain ⟨⟨s', n'⟩, hs, he⟩ := Option.map_eq_some_iff.mp h
      cases he
      rw [if_neg hq, ih hs]
      simp [Function.comp_def, Nat.add_assoc]

/-- A percent sign ends no source unless a brace closes behind it. -/
theorem findClose?_percent (hd : d ≠ .comment) (k : Nat) {cs : List Char}
    (h : k = 0 → cs.head? ≠ some '\x7d') :
    findClose? d.closer none k ('%' :: cs) = (findClose? d.closer none k cs).map (· + 1) := by
  have hp : ¬ (k = 0 ∧ d.closer.isPrefixOf ('%' :: cs) = true) := by
    rintro ⟨hk, hp⟩
    cases d with
    | comment => exact hd rfl
    | tag =>
      cases cs with
      | nil => simp [Delimiter.closer, List.isPrefixOf] at hp
      | cons c cs =>
        simp only [Delimiter.closer, List.isPrefixOf, beq_self_eq_true, Bool.true_and,
          Bool.and_true, beq_iff_eq] at hp
        exact h hk (hp ▸ rfl)
    | output => simp [Delimiter.closer, List.isPrefixOf] at hp
  rw [findClose?.eq_def]
  dsimp only
  rw [if_neg hp]
  rfl

/-- Inside of braces a closing brace ends no source. -/
theorem findClose?_rbrace (close : List Char) (k : Nat) (cs : List Char) :
    findClose? close none (k + 1) ('\x7d' :: cs) = (findClose? close none k cs).map (· + 1) := by
  rw [findClose?.eq_def]
  simp

theorem findClose?_lbrace (hd : d ≠ .comment) (k : Nat) (cs : List Char) :
    findClose? d.closer none k ('\x7b' :: cs) =
      (findClose? d.closer none (k + 1) cs).map (· + 1) := by
  have hp : d.closer.isPrefixOf ('\x7b' :: cs) = false := by
    cases d with
    | comment => exact absurd rfl hd
    | tag => simp [Delimiter.closer, List.isPrefixOf]
    | output => simp [Delimiter.closer, List.isPrefixOf]
  rw [findClose?.eq_def]
  simp [hp]

/-- A quote opens a string. -/
theorem findClose?_quote (hd : d ≠ .comment) {q : Char} (hq : Lexeme.isQuote q = true) (k : Nat)
    (cs : List Char) :
    findClose? d.closer none k (q :: cs) = (findClose? d.closer (some q) k cs).map (· + 1) := by
  simp only [Lexeme.isQuote, Bool.or_eq_true, beq_iff_eq] at hq
  have hp : d.closer.isPrefixOf (q :: cs) = false := by
    cases d with
    | comment => exact absurd rfl hd
    | tag => rcases hq with rfl | rfl <;> rfl
    | output => rcases hq with rfl | rfl <;> rfl
  rw [findClose?.eq_def]
  rcases hq with rfl | rfl <;> simp [hp]

theorem read_rbrace (offset : Nat) (cs : List Char) :
    Lexeme.read offset '\x7d' cs = .ok (.word (.symbol .rbrace), 0) := by
  cases cs <;> rfl

theorem map_add_map_add (o : Option Nat) {a b n : Nat} (h : a + b = n) :
    (o.map (· + a)).map (· + b) = o.map (· + n) := by
  subst h
  simp [Function.comp_def, Nat.add_assoc]

theorem inert_of_mem_chars {s : Symbol} (h₁ : s ≠ .lbrace) (h₂ : s ≠ .rbrace) (h₃ : s ≠ .percent) :
    ∀ c ∈ s.chars, Inert c := by
  refine inert_of_all ?_
  cases s <;> first | decide | contradiction

/-- The scan counts braces as the tokens do. -/
theorem findClose?_symbol (hd : d ≠ .comment) {s : Symbol} {k j : Nat}
    (hb : braceDepth? k [.word (.symbol s)] = some j) {cs : List Char}
    (hp : s = .percent → k = 0 → cs.head? ≠ some '\x7d') :
    findClose? d.closer none k (s.chars ++ cs) =
      (findClose? d.closer none j cs).map (· + s.chars.length) := by
  by_cases h₁ : s = .lbrace
  · subst h₁
    cases hb
    exact findClose?_lbrace hd k cs
  by_cases h₂ : s = .rbrace
  · subst h₂
    cases k with
    | zero => cases hb
    | succ k =>
      cases hb
      exact findClose?_rbrace _ _ cs
  rw [braceDepth?_cons (by simp [Lexeme.Unbraced, h₁, h₂])] at hb
  cases hb
  by_cases h₃ : s = .percent
  · subst h₃
    exact findClose?_percent hd _ (hp rfl)
  · exact findClose?_append_inert hd (inert_of_mem_chars h₁ h₂ h₃) _ cs

/-- Outside of braces the next token is no closing brace. -/
theorem head?_ne_rbrace {offset j : Nat} {cs rest : List Char} {ts : List Token}
    (hr : rest.head? ≠ some '\x7d') (h : TokenStream.tokens offset cs = .ok ts)
    (hb : braceDepth? 0 (ts.map Token.lexeme) = some j) : (cs ++ rest).head? ≠ some '\x7d' := by
  cases cs with
  | nil => exact hr
  | cons c cs =>
    intro hc
    cases hc
    obtain ⟨l, n, more, hl, -, rfl⟩ := TokenStream.tokens_cons_ok (by decide) h
    cases (read_rbrace _ _).symm.trans hl
    cases hb

/-- **No end in an expression.**  The scan passes over tokens whose braces are balanced, and goes on
behind them with as many braces open. -/
theorem findClose?_tokens (hd : d ≠ .comment) {rest : List Char} (hr : rest.head? ≠ some '\x7d')
    {offset k j : Nat} {cs : List Char} {ts : List Token}
    (h : TokenStream.tokens offset cs = .ok ts)
    (hb : braceDepth? k (ts.map Token.lexeme) = some j) :
    findClose? d.closer none k (cs ++ rest) =
      (findClose? d.closer none j rest).map (· + cs.length) := by
  induction cs using TokenStream.text_induction generalizing offset k ts with
  | nil =>
    cases (TokenStream.tokens_nil offset).symm.trans h
    cases hb
    simp
  | blank c cs hc ih =>
    rw [TokenStream.tokens_blank hc] at h
    rw [List.cons_append, findClose?_cons_inert hd (inert_of_isBlank hc), ih h hb,
      map_add_map_add _ rfl, List.length_cons]
  | token c cs hc ih =>
    obtain ⟨l, n, more, hl, hm, rfl⟩ := TokenStream.tokens_cons_ok hc h
    have hn := Lexeme.length_of_read hl
    have hsplit : c :: cs ++ rest = (c :: cs.take n) ++ (cs.drop n ++ rest) := by
      rw [List.cons_append, List.cons_append, ← List.append_assoc, List.take_append_drop]
    have hlen : (cs.drop n).length + (c :: cs.take n).length = (c :: cs).length := by
      simp only [List.length_drop, List.length_cons, List.length_take]
      omega
    rw [List.map_cons] at hb
    rcases Lexeme.read_cases hl with ⟨-, hp, -, hs⟩ | ⟨hq, s, hs, rfl⟩ | ⟨s, hs, -, rfl⟩
    · -- a number or a name
      rw [braceDepth?_cons ⟨hs _, hs _⟩] at hb
      rw [hsplit, findClose?_append_inert hd (fun x hx => inert_of_isPlain (hp x hx)), ih n hm hb,
        map_add_map_add _ hlen]
    · -- a string, whose quotes the scan sees as the tokens do
      rw [braceDepth?_cons (by exact ⟨nofun, nofun⟩)] at hb
      have hlen' : (cs.drop n).length + n = cs.length := by
        rw [List.length_drop]
        omega
      rw [List.cons_append, findClose?_quote hd hq, findClose?_string _ hs, ih n hm hb,
        map_add_map_add _ hlen', map_add_map_add _ rfl, List.length_cons]
    · -- a symbol; behind it as many braces are open as the tokens behind it need
      rw [← List.singleton_append, braceDepth?_append, Option.bind_eq_some_iff] at hb
      obtain ⟨i, hi, hb⟩ := hb
      rw [hsplit]
      rw [hs] at hlen ⊢
      rw [findClose?_symbol hd hi, ih n hm hb, map_add_map_add _ hlen]
      rintro rfl rfl
      cases hi
      exact head?_ne_rbrace hr hm hb

/-! ### Templates of one construct -/

/-- The raw text between two delimiters of a construct that is all of a template. -/
theorem pieces_construct (hd : d ≠ .comment) {raw : List Char}
    (hfind : findClose? d.closer none 0 (raw ++ d.closer) = some raw.length)
    (hleft : raw.head? ≠ some '-') (hright : raw.getLast? ≠ some '-')
    (hv : d = .tag → Verbatim.ofSource? raw = none) :
    pieces (String.ofList (d.opener ++ raw ++ d.closer)) =
      .ok [⟨d.openKind, d.opener, 0⟩, ⟨.source, raw, 2⟩,
        ⟨d.closeKind, d.closer, 2 + Text.byteLength raw⟩] := by
  have hinner : Inner.ofChars raw = ⟨false, raw, false⟩ := by
    simp [Inner.ofChars, hleft, hright]
  have hopening : Delimiter.opening? (d.opener ++ raw ++ d.closer) = some d := by
    cases d with
    | comment => exact absurd rfl hd
    | tag => rfl
    | output => rfl
  have hread : readInner d 0 (d.opener ++ raw ++ d.closer) = .ok raw := by
    have hdrop : (d.opener ++ raw ++ d.closer).drop 2 = raw ++ d.closer := by
      cases d <;> rfl
    rw [readInner, hdrop, hfind]
    simp
  have hconstruct : readConstruct d 0 (d.opener ++ raw ++ d.closer) = .ok (delimited d 0 raw) := by
    cases d with
    | comment => exact absurd rfl hd
    | output => rw [readConstruct, hread]; rfl
    | tag =>
      simp only [readConstruct, hread, hinner, bind, Except.bind, hv rfl]
      rfl
  have hlength : (d.opener ++ raw ++ d.closer).length = raw.length + 4 := by
    cases d <;> simp [Delimiter.opener, Delimiter.closer]
  obtain ⟨c, cs, hcs⟩ : ∃ c cs, d.opener ++ raw ++ d.closer = c :: cs := by
    cases d <;> exact ⟨_, _, rfl⟩
  rw [pieces, String.toList_ofList]
  rw [hcs] at hopening hconstruct hlength ⊢
  rw [piecesFrom, hopening]
  simp only [hconstruct, bind, Except.bind, delimited, hinner]
  have hdrop : cs.drop (raw.length + 4 - 1) = [] :=
    List.drop_eq_nil_of_le (by simp at hlength; omega)
  rw [hdrop]
  simp [piecesFrom, Inner.leftMarker, Inner.rightMarker, Inner.lead, pure, Except.pure]

/-- The item that a construct gives. -/
def Delimiter.item (source : Source) : Delimiter → Item
  | .output => .output source
  | .tag | .comment => .tag source

/-- A template that is all one construct is that construct between texts that are empty. -/
theorem parse_construct (hd : d ≠ .comment) {raw : List Char}
    (hfind : findClose? d.closer none 0 (raw ++ d.closer) = some raw.length)
    (hleft : raw.head? ≠ some '-') (hright : raw.getLast? ≠ some '-')
    (hv : d = .tag → Verbatim.ofSource? raw = none) (registry : Tag.Registry) (mode : Mode) :
    parse registry mode (String.ofList (d.opener ++ raw ++ d.closer)) =
      Forest.feed registry mode .empty (d.item ⟨raw, 0, 2⟩) >>= Forest.finish := by
  rw [parse, pieces_construct hd hfind hleft hright hv]
  have hitems : items [⟨d.openKind, d.opener, 0⟩, ⟨.source, raw, 2⟩,
      ⟨d.closeKind, d.closer, 2 + Text.byteLength raw⟩] = [d.item ⟨raw, 0, 2⟩] := by
    cases d with
    | comment => exact absurd rfl hd
    | tag => rfl
    | output => rfl
  change Forest.ofItems registry mode (items _) = _
  rw [hitems, Forest.ofItems, List.foldlM_cons]
  simp only [List.foldlM_nil, bind_pure]

/-! ### Sources that are expressions -/

section
variable {e : List Char} {ts : List Token} {offset : Nat}

/-- The end of a source that is an expression behind a word or nothing. -/
theorem findClose?_source (hd : d ≠ .comment) {w : List Char} (hw : ∀ c ∈ w, Inert c)
    (h : TokenStream.tokens offset e = .ok ts) (hc : Closes 0 (ts.map Token.lexeme)) :
    findClose? d.closer none 0 ((w ++ e ++ [' ']) ++ d.closer) =
      some (w ++ e ++ [' ']).length := by
  have hend : findClose? d.closer none 0 (' ' :: d.closer) = some 1 := by
    rw [findClose?_cons_inert hd (by decide)]
    cases d <;> rfl
  rw [List.append_assoc, List.append_assoc, findClose?_append_inert hd hw,
    findClose?_tokens hd (by simp) h (hc 0)]
  simp only [List.singleton_append, hend, Option.map_some, List.length_append,
    List.length_singleton]
  congr 1
  omega

/-- The tokens of an expression between white space, at any place. -/
theorem tokens_between_blanks (h : TokenStream.tokens offset e = .ok ts) (offset' : Nat) :
    ∃ ts', TokenStream.tokens offset' (' ' :: (e ++ [' '])) = .ok ts' ∧
      ts'.map Token.lexeme = ts.map Token.lexeme := by
  rw [TokenStream.tokens_blank (by decide),
    TokenStream.tokens_append_blank (fun c hc => by rw [List.mem_singleton.mp hc]; decide)]
  exact TokenStream.tokens_offset h _

theorem getLast?_source (word e : List Char) : (word ++ e ++ [' ']).getLast? ≠ some '-' := by
  rw [List.getLast?_concat]
  decide

/-- A text that is an expression is not white space. -/
theorem trim_isEmpty_of_parse {mode : Mode} {cs : List Char} {base : Nat} {x : Expr}
    (h : Expr.parse mode (String.ofList cs) base = .ok x) : (Text.trim cs).isEmpty = false := by
  refine Bool.eq_false_iff.mpr fun hb => ?_
  obtain ⟨err, herr⟩ := Expr.parse_of_allBlank mode (Text.allBlank_of_trim hb) base
  rw [h] at herr
  cases herr

end

/-- An expression is the source of an output. -/
theorem parse_output {registry : Tag.Registry} {mode : Mode} {e : String} {base : Nat} {x : Expr}
    (h : Expr.parse mode e base = .ok x) :
    parse registry mode ("\x7b\x7b " ++ e ++ " \x7d\x7d") = .ok [.output x 0] := by
  obtain ⟨ts, hts, hx⟩ := Expr.parse_eq_ok_iff.mp h
  have hsource : "\x7b\x7b " ++ e ++ " \x7d\x7d" = String.ofList
      (Delimiter.output.opener ++ ([' '] ++ e.toList ++ [' ']) ++ Delimiter.output.closer) := by
    rw [← String.toList_inj]
    simp [Delimiter.opener, Delimiter.closer]
  have hd : Delimiter.output ≠ .comment := by decide
  have hfind := findClose?_source hd (w := [' ']) (inert_of_all (by decide)) hts hx.closes
  have hexpr : Expr.parse mode (String.ofList ([' '] ++ e.toList ++ [' '])) 2 = .ok x := by
    obtain ⟨ts', hts', he⟩ := tokens_between_blanks hts 2
    exact Expr.parse_eq_ok_iff.mpr ⟨ts', by simpa using hts', he ▸ hx⟩
  have htag : Delimiter.output ≠ .tag := by decide
  rw [hsource, parse_construct hd hfind (by simp) (getLast?_source _ _) fun h => absurd h htag]
  simp only [Delimiter.item, Forest.feed, Forest.readOutput, trim_isEmpty_of_parse hexpr, hexpr]
  rfl

/-- What the registry says of `echo`. -/
theorem exists_echo (mode : Mode) : ∃ d : Tag.Descriptor,
    Tag.Registry.standard.get? "echo" mode = some d ∧ d.start = .expr ∧ d.inside = [] ∧
      d.role = .standalone ∧ d.behavior = .echo := by
  cases mode <;> exact ⟨_, rfl, rfl, rfl, rfl, rfl⟩

/-- The name of a tag and its head, without the white space around it. -/
theorem ofChars_append {w tail : List Char} (hw : w ≠ [])
    (hblank : ∀ c ∈ w, Text.isBlank c = false) (ht : ∀ c ∈ tail.head?, Text.isBlank c = true)
    (offset : Nat) :
    ∃ restOffset, Words.ofChars (' ' :: (w ++ tail)) offset = ⟨w, Text.trim tail, restOffset⟩ := by
  have hlead : (' ' :: (w ++ tail)).takeWhile Text.isBlank = [' '] := by
    refine takeWhile_isBlank_append Text.allBlank_space ?_
    obtain ⟨c, cs, rfl⟩ := List.exists_cons_of_ne_nil hw
    simpa using hblank c (by simp)
  have hfirst : (w ++ tail).takeWhile (fun c => !Text.isBlank c) = w := by
    rw [List.takeWhile_append_of_pos fun c hc => by simp [hblank c hc],
      takeWhile_eq_nil_of_head? fun c hc => by simp [ht c hc], List.append_nil]
  have hrest : (' ' :: (w ++ tail)).drop 1 = w ++ tail := rfl
  simp only [Words.ofChars, hlead, List.length_singleton, hrest, hfirst, List.drop_left]
  exact ⟨_, rfl⟩

/-- In python a tag that begins with any word but `else` has that word as its name too. -/
theorem tagWords_append {w tail : List Char} (hw : w ≠ [])
    (hblank : ∀ c ∈ w, Text.isBlank c = false) (ht : ∀ c ∈ tail.head?, Text.isBlank c = true)
    (helse : w ≠ ['e', 'l', 's', 'e']) (mode : Mode) (offset base : Nat) :
    ∃ restOffset, Forest.tagWords mode ⟨' ' :: (w ++ tail), offset, base⟩ =
      ⟨w, Text.trim tail, restOffset⟩ := by
  obtain ⟨restOffset, hwords⟩ := ofChars_append hw hblank ht base
  refine ⟨restOffset, ?_⟩
  simp only [Forest.tagWords, hwords]
  rw [if_neg fun h => helse h.2]

/-- A text that is an expression is the head of a tag that asks for one. -/
theorem readArgs_expr {mode : Mode} {cs : List Char} {base : Nat} {x : Expr}
    (h : Expr.parse mode (String.ofList cs) base = .ok x) (name : String) :
    readArgs mode .expr name cs base = .ok (.expr x) := by
  have hne : cs.isEmpty = false := by
    refine Bool.eq_false_iff.mpr fun he => ?_
    rw [List.isEmpty_iff.mp he] at h
    cases (trim_isEmpty_of_parse h)
  obtain ⟨ts, t, hts, hp, ht⟩ := TemplateEngine.Parse.whole_eq_ok_iff.mp h
  rw [readArgs]
  · simp only [hne]
    refine TemplateEngine.Parse.whole_eq_ok_iff.mpr ⟨ts, t, hts, ?_, ht⟩
    exact bind_eq_ok_iff.mpr ⟨(x, t), hp, rfl⟩
  · exact nofun
  · exact nofun

/-- A source begins no verbatim block when the name of one is not its only token. -/
theorem ofSource?_of_lexes {cs : List Char} {ls : List Lexeme} (h : Lexes cs ls)
    (hls : ∀ v : Verbatim, ls ≠ [.word (.name v.name)]) : Verbatim.ofSource? cs = none := by
  have notName : ∀ v : Verbatim, String.ofList (Text.trim cs) ≠ v.name := by
    intro v hv
    have hname : IsIdentifier v.name := by cases v <;> decide
    have htrim := h.trim
    rw [← String.toList_ofList (l := Text.trim cs), hv] at htrim
    exact hls v (htrim.unique (.name hname))
  exact (if_neg (notName .raw)).trans (if_neg (notName .comment))

/-- An expression is the head of an `echo` tag. -/
theorem parse_echo {mode : Mode} {e : String} {base : Nat} {x : Expr}
    (h : Expr.parse mode e base = .ok x) {d : Tag.Descriptor}
    (hd : Tag.Registry.standard.get? "echo" mode = some d) :
    parse .standard mode ("\x7b% echo " ++ e ++ " %\x7d") =
      .ok [.tag ⟨"echo", d, .expr x, 0⟩ [] []] := by
  obtain ⟨ts, hts, hx⟩ := Expr.parse_eq_ok_iff.mp h
  have hsource : "\x7b% echo " ++ e ++ " %\x7d" = String.ofList
      (Delimiter.tag.opener ++ (" echo ".toList ++ e.toList ++ [' ']) ++ Delimiter.tag.closer) := by
    rw [← String.toList_inj]
    simp [Delimiter.opener, Delimiter.closer]
  have hdelim : Delimiter.tag ≠ .comment := by decide
  have hword : ∀ c ∈ " echo ".toList, Inert c := inert_of_all (by decide)
  have hfind := findClose?_source hdelim hword hts hx.closes
  have hname : ∀ c ∈ "echo".toList, Text.isBlank c = false := by
    simp
    decide
  have hraw : " echo ".toList ++ e.toList ++ [' '] =
      ' ' :: ("echo".toList ++ ' ' :: (e.toList ++ [' '])) := rfl
  obtain ⟨ts₀, hts₀, -⟩ := tokens_between_blanks hts 0
  have hlexes : Lexes (' ' :: ("echo".toList ++ ' ' :: (e.toList ++ [' '])))
      (.word (.name "echo") :: ts₀.map Token.lexeme) :=
    .blank (by decide) (.name_append (by decide) (by simp; decide) (.of_tokens hts₀))
  have hverbatim : Verbatim.ofSource? (" echo ".toList ++ e.toList ++ [' ']) = none := by
    rw [hraw]
    exact ofSource?_of_lexes hlexes fun v => by cases v <;> simp [Verbatim.name]
  have htail : ∀ c ∈ (' ' :: (e.toList ++ [' '])).head?, Text.isBlank c = true := by
    simp
    decide
  obtain ⟨offset, hwords⟩ :=
    tagWords_append (by decide) hname htail (by decide) mode 0 2
  obtain ⟨d', hd', hstart, hinside, hrole, -⟩ := exists_echo mode
  cases hd.symm.trans hd'
  -- the head of the tag is the expression without the white space around it
  have hexpr : Expr.parse mode (String.ofList (Text.trim (' ' :: (e.toList ++ [' '])))) offset =
      .ok x := by
    obtain ⟨ts₁, hts₁, he₁⟩ := tokens_between_blanks hts 0
    rw [← TokenStream.tokens_trim] at hts₁
    obtain ⟨ts₂, hts₂, he₂⟩ := TokenStream.tokens_offset hts₁ offset
    exact Expr.parse_eq_ok_iff.mpr ⟨ts₂, by simpa using hts₂, (he₂.trans he₁) ▸ hx⟩
  have hfeed : Forest.feed .standard mode .empty
      (.tag ⟨" echo ".toList ++ e.toList ++ [' '], 0, 2⟩) =
        .ok ⟨[.tag ⟨"echo", d, .expr x, 0⟩ [] []], []⟩ := by
    have hwords' : Forest.tagWords mode ⟨" echo ".toList ++ e.toList ++ [' '], 0, 2⟩ =
        ⟨"echo".toList, Text.trim (' ' :: (e.toList ++ [' '])), offset⟩ := hwords
    have hargs := readArgs_expr hexpr "echo"
    simp only [Forest.feed, Forest.readTag, hwords', String.ofList_toList, hd, hstart, hargs,
      Forest.encloses, hinside, Forest.addTag, hrole, bind, Except.bind]
    rfl
  rw [hsource, parse_construct hdelim hfind (by simp) (getLast?_source _ _) fun _ => hverbatim]
  simp only [Delimiter.item, hfeed]
  rfl

end TemplateEngine.Markup
