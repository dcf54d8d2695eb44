import TemplateEngine.Proofs.Expr.Sentences
import TemplateEngine.Proofs.Value.Literal

/-!
# Expressions as they are written

An expression is written with every compound part in parentheses (`Expr.write`).  What the python
dialect has a spelling for is *writable* (`Expr.IsWritable`): literals other than floats and
negative integers, variables that are no words of the grammar, containers, members, subscripts,
slices, calls, operators other than `contains`, conditionals and filters.  A part in parentheses is
an operand in front of every text (`OperandText.group`), each production makes a sentence of
operands (`SentenceText`), and so by induction a writable expression is read back from what is
written for it (`Expr.parse_write`).
-/

namespace TemplateEngine

/-! ### Writing -/

/-- The operator as it is written. -/
def BinaryOp.text (op : BinaryOp) : String := " ".intercalate (op.words.map Word.text)

/-- The operator as it is written in front of an operand. -/
def UnaryOp.text : UnaryOp → String
  | .not => "not "
  | .neg => "-"
  | .pos => "+"
  | .invert => "~"

namespace Expr

/-- What is written for a part: parentheses stand around it, unless it is a literal or a name. -/
def enclose (x : Expr) (text : String) : String :=
  match x with
  | .literal _ | .var _ => text
  | _ => "(" ++ text ++ ")"

mutual

/-- The expression in the python dialect, with every compound part in parentheses; ranges and
`empty` have no spelling there. -/
def write : Expr → String
  | .literal v => v.repr
  | .var name => name
  | .list xs => "[" ++ ", ".intercalate (writeAll xs) ++ "]"
  | .tuple [x] => "(" ++ x.enclose (write x) ++ ",)"
  | .tuple xs => "(" ++ ", ".intercalate (writeAll xs) ++ ")"
  | .set xs => "\x7b" ++ ", ".intercalate (writeAll xs) ++ "\x7d"
  | .dict es => "\x7b" ++ ", ".intercalate (writeEntries es) ++ "\x7d"
  | .attr x name => x.enclose (write x) ++ "." ++ name
  | .index x key => x.enclose (write x) ++ "[" ++ key.enclose (write key) ++ "]"
  | .slice x start stop step =>
    x.enclose (write x) ++ "[" ++ writePart "" start ++ ":" ++ writePart "" stop ++
      writePart ":" step ++ "]"
  | .call x args => x.enclose (write x) ++ "(" ++ ", ".intercalate (writeAll args) ++ ")"
  | .unary op x => op.text ++ x.enclose (write x)
  | .binary op x y => x.enclose (write x) ++ " " ++ op.text ++ " " ++ y.enclose (write y)
  | .ternary cond yes no =>
    yes.enclose (write yes) ++ " if " ++ cond.enclose (write cond) ++ " else " ++
      no.enclose (write no)
  | .filter x name [] => x.enclose (write x) ++ " | " ++ name
  | .filter x name args =>
    x.enclose (write x) ++ " | " ++ name ++ "(" ++ ", ".intercalate (writeAll args) ++ ")"
  | .range _ _ | .empty => ""

/-- The parts of a container. -/
def writeAll : List Expr → List String
  | [] => []
  | x :: xs => x.enclose (write x) :: writeAll xs

/-- The entries of a dict. -/
def writeEntries : List (Expr × Expr) → List String
  | [] => []
  | (k, v) :: es => (k.enclose (write k) ++ ": " ++ v.enclose (write v)) :: writeEntries es

/-- A part of a slice, with what stands in front of it. -/
def writePart (lead : String) : Option Expr → String
  | none => ""
  | some x => lead ++ x.enclose (write x)

end

/-- The expression has a spelling in the python dialect. -/
inductive IsWritable : Expr → Prop where
  | nil : IsWritable (.literal .nil)
  | bool (b : Bool) : IsWritable (.literal (.bool b))
  | int {i : Int64} (h : 0 ≤ i.toInt) : IsWritable (.literal (.int i))
  | str (s : String) : IsWritable (.literal (.str s))
  | var {name : String} (h : IsIdentifier name)
      (keywords : Grammar.python.keywords.lookup name = none)
      (reserved : Grammar.python.reserved.contains name = false) : IsWritable (.var name)
  | list {xs : List Expr} (items : ∀ x ∈ xs, IsWritable x) : IsWritable (.list xs)
  | tuple {xs : List Expr} (items : ∀ x ∈ xs, IsWritable x) : IsWritable (.tuple xs)
  | set {xs : List Expr} (items : ∀ x ∈ xs, IsWritable x) (ne : xs ≠ []) : IsWritable (.set xs)
  | dict {es : List (Expr × Expr)} (keys : ∀ e ∈ es, IsWritable e.1)
      (values : ∀ e ∈ es, IsWritable e.2) : IsWritable (.dict es)
  | attr {x : Expr} {name : String} (base : IsWritable x) (h : IsIdentifier name) :
      IsWritable (.attr x name)
  | index {x key : Expr} (base : IsWritable x) (inner : IsWritable key) : IsWritable (.index x key)
  | slice {x : Expr} {start stop step : Option Expr} (base : IsWritable x)
      (first : ∀ y ∈ start, IsWritable y) (last : ∀ y ∈ stop, IsWritable y)
      (stride : ∀ y ∈ step, IsWritable y) : IsWritable (.slice x start stop step)
  | call {x : Expr} {args : List Expr} (callee : IsWritable x) (inner : ∀ y ∈ args, IsWritable y) :
      IsWritable (.call x args)
  | unary {x : Expr} (op : UnaryOp) (operand : IsWritable x) : IsWritable (.unary op x)
  | binary {op : BinaryOp} {x y : Expr} (h : op ≠ .contains) (left : IsWritable x)
      (right : IsWritable y) : IsWritable (.binary op x y)
  | ternary {cond yes no : Expr} (test : IsWritable cond) (positive : IsWritable yes)
      (negative : IsWritable no) : IsWritable (.ternary cond yes no)
  | filter {x : Expr} {name : String} {args : List Expr} (value : IsWritable x)
      (h : IsIdentifier name) (inner : ∀ y ∈ args, IsWritable y) : IsWritable (.filter x name args)

end Expr

/-! ### Texts of operands -/

/-- The text is read as an operand in front of every text that goes on with no name and no
number. -/
def OperandText (s : String) (x : Expr) : Prop :=
  ∃ ls, Operand ls x ∧ ∀ ds ms, Ceases ds → Lexes ds ms → Lexes (s.toList ++ ds) (ls ++ ms)

/-- The text is read as a sentence. -/
def SentenceText (s : String) (x : Expr) : Prop := ∃ ls, Sentence ls x ∧ Lexes s.toList ls

namespace OperandText

variable {s : String} {x : Expr}

theorem keyword {k : Keyword} (hs : IsIdentifier s)
    (hk : Grammar.python.keywords.lookup s = some k) (hnot : s ≠ "not") : OperandText s k.expr :=
  ⟨_, Operand.keyword hk hnot, fun _ _ hd h => Lexes.name_append hs hd.1 h⟩

theorem var (hs : IsIdentifier s) (hk : Grammar.python.keywords.lookup s = none)
    (hr : Grammar.python.reserved.contains s = false) : OperandText s (.var s) :=
  ⟨_, Operand.var hk hr, fun _ _ hd h => Lexes.name_append hs hd.1 h⟩

theorem int {i : Int64} (hi : 0 ≤ i.toInt) :
    OperandText (Number.writeInt i.toInt) (.literal (.int i)) :=
  ⟨_, Operand.int i, fun _ _ hd h => Lexes.int_append hi hd h⟩

theorem str (t : String) : OperandText (Text.literal t) (.literal (.str t)) :=
  ⟨_, Operand.str t, fun _ _ _ h => Lexes.string_append t h⟩

/-- A sentence in parentheses. -/
theorem group (h : SentenceText s x) : OperandText ("(" ++ s ++ ")") x := by
  obtain ⟨ls, hls, hs⟩ := h
  refine ⟨_, Operand.group hls, fun ds ms _ hd => ?_⟩
  have hclose := hs.append (breaks_cons.mpr (by decide)) (Lexes.symbol .rparen hd)
  simpa using Lexes.symbol .lparen hclose

/-- An operand in front of a break or of a part that begins with one. -/
theorem lexes_break {c : Char} {cs : List Char} {ms : List Lexeme} (hc : isBreak c = true)
    (h : OperandText s x) (hm : Lexes (c :: cs) ms) :
    ∃ ls, Operand ls x ∧ Lexes (s.toList ++ c :: cs) (ls ++ ms) := by
  obtain ⟨ls, hls, hs⟩ := h
  exact ⟨ls, hls, hs _ _ (breaks_cons.mpr hc).ceases hm⟩

theorem lexes (h : OperandText s x) : ∃ ls, Operand ls x ∧ Lexes s.toList ls := by
  obtain ⟨ls, hls, hs⟩ := h
  exact ⟨ls, hls, by simpa using hs [] [] ceases_nil .nil⟩

/-- The tokens of the parts of a container. -/
theorem exists_parts {texts : List String} {xs : List Expr}
    (h : List.Forall₂ OperandText texts xs) :
    ∃ parts, List.Forall₂ (fun s ls => Lexes s.toList ls) texts parts ∧
      List.Forall₂ Phrase parts xs := by
  induction h with
  | nil => exact ⟨[], .nil, .nil⟩
  | cons hx _ ih =>
    obtain ⟨ls, hls, hs⟩ := hx.lexes
    obtain ⟨parts, hparts, hxs⟩ := ih
    exact ⟨ls :: parts, .cons hs hparts, .cons hls.phrase hxs⟩

/-- The text of an entry of a dict. -/
def Entry (t : String) (e : Expr × Expr) : Prop :=
  ∃ k v, t = k ++ ": " ++ v ∧ OperandText k e.1 ∧ OperandText v e.2

/-- The tokens of the entries of a dict. -/
theorem exists_entries {texts : List String} {es : List (Expr × Expr)}
    (h : List.Forall₂ Entry texts es) :
    ∃ parts, List.Forall₂ (fun s ls => Lexes s.toList ls) texts parts ∧
      List.Forall₂ Phrase.Entry parts es := by
  induction h with
  | nil => exact ⟨[], .nil, .nil⟩
  | cons he _ ih =>
    obtain ⟨k, v, rfl, hk, hv⟩ := he
    obtain ⟨vs, hvs, hv⟩ := hv.lexes
    obtain ⟨ks, hks, hk⟩ := hk.lexes_break (by decide)
      (Lexes.symbol .colon (Lexes.blank (c := ' ') (by decide) hv))
    obtain ⟨parts, hparts, hes⟩ := ih
    refine ⟨_ :: parts, .cons ?_ hparts, .cons ⟨ks, vs, rfl, hks.phrase, hvs.phrase⟩ hes⟩
    simpa using hk

/-- The text of a bound of a slice, which may be left out. -/
def Part (t : String) : Option Expr → Prop
  | none => t = ""
  | some x => OperandText t x

/-- The text of the step of a slice; a colon stands in front of it, unless it is left out. -/
def Step (t : String) : Option Expr → Prop
  | none => t = ""
  | some x => ∃ u, t = ":" ++ u ∧ OperandText u x

/-- A bound in front of a break. -/
theorem Part.lexes_break {part : Option Expr} {c : Char} {cs : List Char} {ms : List Lexeme}
    (hc : isBreak c = true) (h : Part s part) (hm : Lexes (c :: cs) ms) :
    ∃ ls, Phrase.Part ls part ∧ Lexes (s.toList ++ c :: cs) (ls ++ ms) := by
  cases part with
  | none =>
    cases h
    exact ⟨[], rfl, hm⟩
  | some x =>
    obtain ⟨ls, hls, hs⟩ := OperandText.lexes_break hc h hm
    exact ⟨ls, hls.phrase, hs⟩

/-- A step in front of the closing bracket; the two begin with a break. -/
theorem Step.lexes_rbracket {step : Option Expr} (h : Step s step) :
    ∃ ls c cs, Phrase.Step ls step ∧ s.toList ++ [']'] = c :: cs ∧ isBreak c = true ∧
      Lexes (c :: cs) (ls ++ [.word (.symbol .rbracket)]) := by
  have hclose := Lexes.symbol .rbracket Lexes.nil
  cases step with
  | none =>
    cases h
    exact ⟨[], ']', [], rfl, rfl, by decide, hclose⟩
  | some x =>
    obtain ⟨u, rfl, hu⟩ := h
    obtain ⟨ks, hks, hlex⟩ := hu.lexes_break (by decide) hclose
    exact ⟨_, ':', u.toList ++ [']'], ⟨ks, rfl, hks.phrase⟩, by simp, by decide,
      Lexes.symbol .colon hlex⟩

end OperandText

/-! ### Texts of sentences -/

/-- Names are identifiers. -/
def Word.Printable : Word → Prop
  | .name s => IsIdentifier s
  | .symbol _ => True

instance : (w : Word) → Decidable w.Printable
  | .name s => inferInstanceAs (Decidable (IsIdentifier s))
  | .symbol _ => inferInstanceAs (Decidable True)

/-- A word in front of a blank. -/
theorem Lexes.word {w : Word} (hw : w.Printable) {ds : List Char} {ms : List Lexeme}
    (h : Lexes (' ' :: ds) ms) : Lexes (w.text.toList ++ ' ' :: ds) (.word w :: ms) := by
  cases w with
  | name s => exact name_append hw (fun d hd => by cases hd; decide) h
  | symbol s => simpa [Word.text, Symbol.text] using symbol_append_blank s h

/-- Words with blanks between them, in front of a blank. -/
theorem Lexes.words {words : List Word} (hw : ∀ w ∈ words, w.Printable) {ds : List Char}
    {ms : List Lexeme} (h : Lexes (' ' :: ds) ms) :
    Lexes ((" ".intercalate (words.map Word.text)).toList ++ ' ' :: ds)
      (words.map .word ++ ms) := by
  induction words with
  | nil => simpa using h
  | cons w words ih =>
    have hmore := ih fun v hv => hw v (by simp [hv])
    cases words with
    | nil => simpa using Lexes.word (hw w (by simp)) h
    | cons v words =>
      rw [List.map_cons, List.map_cons, String.intercalate_cons_cons]
      have hlead := Lexes.word (hw w (by simp)) (Lexes.blank (c := ' ') (by decide) hmore)
      simpa using hlead

namespace SentenceText

variable {s t u name : String} {x y z : Expr} {texts : List String} {xs : List Expr}

theorem of_operand (h : OperandText s x) : SentenceText s x := by
  obtain ⟨ls, hls, hs⟩ := h.lexes
  exact ⟨ls, .of_phrase hls.phrase, hs⟩

theorem unary (op : UnaryOp) (h : OperandText s x) : SentenceText (op.text ++ s) (.unary op x) := by
  obtain ⟨ls, hls, hs⟩ := h.lexes
  refine ⟨_, Sentence.unary op hls, ?_⟩
  cases op with
  | not =>
    have hnot := Lexes.word (w := .name "not") (by decide) (Lexes.blank (c := ' ') (by decide) hs)
    simpa [UnaryOp.text, UnaryOp.word, Word.text] using hnot
  | neg => simpa [UnaryOp.text, UnaryOp.word] using Lexes.symbol .minus hs
  | pos => simpa [UnaryOp.text, UnaryOp.word] using Lexes.cons (by decide) (fun _ => rfl) hs
  | invert => simpa [UnaryOp.text, UnaryOp.word] using Lexes.cons (by decide) (fun _ => rfl) hs

theorem binary {op : BinaryOp} (hop : op ≠ .contains) (hx : OperandText s x)
    (hy : OperandText t y) : SentenceText (s ++ " " ++ op.text ++ " " ++ t) (.binary op x y) := by
  have hw : ∀ w ∈ op.words, w.Printable := by cases op <;> decide
  obtain ⟨ms, hms, ht⟩ := hy.lexes
  obtain ⟨ls, hls, hs⟩ := hx.lexes_break (c := ' ') (by decide)
    (Lexes.blank (by decide) (Lexes.words hw (Lexes.blank (c := ' ') (by decide) ht)))
  exact ⟨_, Sentence.binary hop hls hms, by simpa [BinaryOp.text] using hs⟩

theorem attr (h : OperandText s x) (hname : IsIdentifier name) :
    SentenceText (s ++ "." ++ name) (.attr x name) := by
  obtain ⟨ls, hls, hs⟩ := h
  refine ⟨_, .of_phrase (Phrase.attr hls name), ?_⟩
  simpa using hs _ _ (ceases_dot hname) (Lexes.dot hname (Lexes.name hname))

theorem index (hx : OperandText s x) (hy : OperandText t y) :
    SentenceText (s ++ "[" ++ t ++ "]") (.index x y) := by
  obtain ⟨ms, hms, ht⟩ := hy.lexes_break (by decide) (Lexes.symbol .rbracket Lexes.nil)
  obtain ⟨ls, hls, hs⟩ := hx.lexes_break (by decide) (Lexes.symbol .lbracket ht)
  exact ⟨_, .of_phrase (Phrase.index hls hms.phrase), by simpa using hs⟩

theorem slice {start stop step : Option Expr} {v : String} (hx : OperandText s x)
    (hstart : OperandText.Part t start) (hstop : OperandText.Part u stop)
    (hstep : OperandText.Step v step) :
    SentenceText (s ++ "[" ++ t ++ ":" ++ u ++ v ++ "]") (.slice x start stop step) := by
  obtain ⟨ks, c, cs, hks, htext, hc, hv⟩ := hstep.lexes_rbracket
  obtain ⟨rs, hrs, hu⟩ := hstop.lexes_break hc hv
  obtain ⟨ms, hms, ht⟩ := hstart.lexes_break (by decide) (Lexes.symbol .colon hu)
  obtain ⟨ls, hls, hs⟩ := hx.lexes_break (by decide) (Lexes.symbol .lbracket ht)
  refine ⟨_, .of_phrase (Phrase.slice hls hms hrs hks), ?_⟩
  rw [← htext] at hs
  simpa using hs

theorem call (h : OperandText s x) (hargs : List.Forall₂ OperandText texts xs) :
    SentenceText (s ++ "(" ++ ", ".intercalate texts ++ ")") (.call x xs) := by
  obtain ⟨parts, hparts, hxs⟩ := OperandText.exists_parts hargs
  obtain ⟨ls, hls, hs⟩ := h.lexes_break (by decide)
    (Lexes.bracketed .lparen .rparen (by decide) hparts)
  exact ⟨_, .of_phrase (Phrase.call hls hxs), by simpa using hs⟩

theorem ternary (hyes : OperandText s y) (hcond : OperandText t x) (hno : OperandText u z) :
    SentenceText (s ++ " if " ++ t ++ " else " ++ u) (.ternary x y z) := by
  obtain ⟨rs, hrs, hu⟩ := hno.lexes
  have helse := Lexes.word (w := .name "else") (by decide) (Lexes.blank (c := ' ') (by decide) hu)
  obtain ⟨ms, hms, ht⟩ := hcond.lexes_break (c := ' ') (by decide)
    (Lexes.blank (by decide) helse)
  have hif := Lexes.word (w := .name "if") (by decide) (Lexes.blank (c := ' ') (by decide) ht)
  obtain ⟨ls, hls, hs⟩ := hyes.lexes_break (c := ' ') (by decide) (Lexes.blank (by decide) hif)
  exact ⟨_, Sentence.ternary hls hms hrs, by simpa [Word.text] using hs⟩

/-- A bar between blanks, and the name of a filter. -/
theorem lexes_filter (h : OperandText s x) (hname : IsIdentifier name) {ds : List Char}
    {ms : List Lexeme} (hd : ∀ d ∈ ds.head?, Text.isNamePart d = false) (hm : Lexes ds ms) :
    ∃ ls, Operand ls x ∧ Lexes ((s ++ " | " ++ name).toList ++ ds)
      (ls ++ .word (.symbol .bar) :: .word (.name name) :: ms) := by
  have hbar := Lexes.symbol_append_blank .bar
    (Lexes.blank (c := ' ') (by decide) (Lexes.name_append hname hd hm))
  obtain ⟨ls, hls, hs⟩ := h.lexes_break (c := ' ') (by decide) (Lexes.blank (by decide) hbar)
  exact ⟨ls, hls, by simpa [Symbol.chars] using hs⟩

theorem filter (h : OperandText s x) (hname : IsIdentifier name) :
    SentenceText (s ++ " | " ++ name) (.filter x name []) := by
  obtain ⟨ls, hls, hs⟩ := lexes_filter h hname (fun _ hd => by cases hd) Lexes.nil
  exact ⟨_, Sentence.filter hls name, by simpa using hs⟩

theorem filter_call (h : OperandText s x) (hname : IsIdentifier name)
    (hargs : List.Forall₂ OperandText texts xs) :
    SentenceText (s ++ " | " ++ name ++ "(" ++ ", ".intercalate texts ++ ")")
      (.filter x name xs) := by
  obtain ⟨parts, hparts, hxs⟩ := OperandText.exists_parts hargs
  obtain ⟨ls, hls, hs⟩ := lexes_filter h hname (fun d hd => by cases hd; decide)
    (Lexes.bracketed .lparen .rparen (by decide) hparts)
  exact ⟨_, Sentence.filter_call hls name hxs, by simpa using hs⟩

/-! ### Containers -/

theorem list (h : List.Forall₂ OperandText texts xs) :
    SentenceText ("[" ++ ", ".intercalate texts ++ "]") (.list xs) := by
  obtain ⟨parts, hparts, hxs⟩ := OperandText.exists_parts h
  refine ⟨_, .of_phrase (Phrase.list hxs), ?_⟩
  simpa using Lexes.bracketed .lbracket .rbracket (by decide) hparts

theorem tuple_singleton (h : OperandText s x) : SentenceText ("(" ++ s ++ ",)") (.tuple [x]) := by
  obtain ⟨ls, hls, hs⟩ := h.lexes_break (by decide)
    (Lexes.symbol .comma (Lexes.symbol .rparen Lexes.nil))
  refine ⟨_, .of_phrase (Phrase.tuple_singleton hls.phrase), ?_⟩
  simpa using Lexes.symbol .lparen hs

theorem tuple (h : List.Forall₂ OperandText texts xs) (hlen : xs.length ≠ 1) :
    SentenceText ("(" ++ ", ".intercalate texts ++ ")") (.tuple xs) := by
  obtain ⟨parts, hparts, hxs⟩ := OperandText.exists_parts h
  refine ⟨_, .of_phrase (Phrase.tuple hxs hlen), ?_⟩
  simpa using Lexes.bracketed .lparen .rparen (by decide) hparts

theorem set (h : List.Forall₂ OperandText texts xs) (hne : xs ≠ []) :
    SentenceText ("\x7b" ++ ", ".intercalate texts ++ "\x7d") (.set xs) := by
  obtain ⟨parts, hparts, hxs⟩ := OperandText.exists_parts h
  refine ⟨_, .of_phrase (Phrase.set hxs hne), ?_⟩
  simpa using Lexes.bracketed .lbrace .rbrace (by decide) hparts

theorem dict {es : List (Expr × Expr)} (h : List.Forall₂ OperandText.Entry texts es) :
    SentenceText ("\x7b" ++ ", ".intercalate texts ++ "\x7d") (.dict es) := by
  obtain ⟨parts, hparts, hes⟩ := OperandText.exists_entries h
  refine ⟨_, .of_phrase (Phrase.dict hes), ?_⟩
  simpa using Lexes.bracketed .lbrace .rbrace (by decide) hparts

end SentenceText

/-! ### Reading what is written -/

namespace Expr

/-- What is written for the expression is read as the expression, as a part and on its own. -/
structure ReadsBack (x : Expr) : Prop where
  operand : OperandText (x.enclose x.write) x
  sentence : SentenceText x.write x

namespace ReadsBack

variable {x : Expr}

/-- A literal or a name. -/
theorem atom (h : OperandText x.write x) (he : x.enclose x.write = x.write) : x.ReadsBack :=
  ⟨he.symm ▸ h, .of_operand h⟩

/-- Parentheses stand around every other part. -/
theorem compound (h : SentenceText x.write x) (he : x.enclose x.write = "(" ++ x.write ++ ")") :
    x.ReadsBack :=
  ⟨he ▸ .group h, h⟩

theorem texts {xs : List Expr} (h : ∀ x ∈ xs, x.ReadsBack) :
    List.Forall₂ OperandText (writeAll xs) xs := by
  induction xs with
  | nil => exact .nil
  | cons x xs ih => exact .cons (h x (by simp)).operand (ih fun y hy => h y (by simp [hy]))

theorem entries {es : List (Expr × Expr)} (hk : ∀ e ∈ es, e.1.ReadsBack)
    (hv : ∀ e ∈ es, e.2.ReadsBack) : List.Forall₂ OperandText.Entry (writeEntries es) es := by
  induction es with
  | nil => exact .nil
  | cons e es ih =>
    exact .cons ⟨_, _, rfl, (hk e (by simp)).operand, (hv e (by simp)).operand⟩
      (ih (fun f hf => hk f (by simp [hf])) fun f hf => hv f (by simp [hf]))

theorem part {part : Option Expr} (h : ∀ x ∈ part, x.ReadsBack) :
    OperandText.Part (writePart "" part) part := by
  cases part with
  | none => rfl
  | some x => simpa [writePart, OperandText.Part] using (h x rfl).operand

theorem step {part : Option Expr} (h : ∀ x ∈ part, x.ReadsBack) :
    OperandText.Step (writePart ":" part) part := by
  cases part with
  | none => rfl
  | some x => exact ⟨_, rfl, (h x rfl).operand⟩

end ReadsBack

/-- Every writable expression is read back. -/
theorem IsWritable.readsBack {x : Expr} (h : x.IsWritable) : x.ReadsBack := by
  induction h with
  | nil => exact .atom (.keyword (s := "None") (k := .nil) (by decide) rfl (by decide)) rfl
  | bool b =>
    cases b with
    | false => exact .atom (.keyword (s := "False") (k := .false) (by decide) rfl (by decide)) rfl
    | true => exact .atom (.keyword (s := "True") (k := .true) (by decide) rfl (by decide)) rfl
  | int h => exact .atom (.int h) rfl
  | str s => exact .atom (.str s) rfl
  | var h keywords reserved => exact .atom (.var h keywords reserved) rfl
  | list items ih => exact .compound (.list (ReadsBack.texts ih)) rfl
  | @tuple xs items ih =>
    -- a single item is written with a comma of its own
    rcases xs with _ | ⟨x, _ | ⟨y, more⟩⟩
    · exact .compound (.tuple .nil (by simp)) rfl
    · exact .compound (.tuple_singleton (ih x (by simp)).operand) rfl
    · exact .compound (.tuple (ReadsBack.texts ih) (by simp)) rfl
  | set items ne ih => exact .compound (.set (ReadsBack.texts ih) ne) rfl
  | dict keys values ihk ihv => exact .compound (.dict (ReadsBack.entries ihk ihv)) rfl
  | attr base h ih => exact .compound (.attr ih.operand h) rfl
  | index base inner ih ihk => exact .compound (.index ih.operand ihk.operand) rfl
  | slice base first last stride ih ihf ihl ihs =>
    exact .compound (.slice ih.operand (ReadsBack.part ihf) (ReadsBack.part ihl)
      (ReadsBack.step ihs)) rfl
  | call callee inner ih iha => exact .compound (.call ih.operand (ReadsBack.texts iha)) rfl
  | unary op operand ih => exact .compound (.unary op ih.operand) rfl
  | binary h left right ihl ihr => exact .compound (.binary h ihl.operand ihr.operand) rfl
  | ternary test positive negative iht ihp ihn =>
    exact .compound (.ternary ihp.operand iht.operand ihn.operand) rfl
  | @filter x name args value h inner ih iha =>
    cases args with
    | nil => exact .compound (.filter ih.operand h) rfl
    | cons y more => exact .compound (.filter_call ih.operand h (ReadsBack.texts iha)) rfl

/-- **A writable expression is read back from what is written for it**, wherever that stands. -/
theorem parse_write {x : Expr} (h : x.IsWritable) (base : Nat) :
    parse .python x.write base = .ok x := by
  obtain ⟨ls, hls, hlex⟩ := h.readsBack.sentence
  obtain ⟨ts, hts, hl⟩ := hlex base
  exact parse_eq_ok_iff.mpr ⟨ts, hts, hl ▸ hls.spells⟩

/-- A conditional with a slice, an operator of two words and a set, and a filter behind it. -/
theorem parse_write_filter :
    IsWritable (.filter (.ternary (.binary .notIn (.literal (.str "a")) (.var "rows"))
      (.slice (.var "rows") none none (some (.literal (.int 2)))) (.set [.literal .nil]))
      "first" []) ∧
    parse .python "((rows[::2]) if (\x27a\x27 not in rows) else (\x7bNone\x7d)) | first" 0 =
      .ok (.filter (.ternary (.binary .notIn (.literal (.str "a")) (.var "rows"))
        (.slice (.var "rows") none none (some (.literal (.int 2)))) (.set [.literal .nil]))
        "first" []) := by
  have rows : IsWritable (.var "rows") := .var (by decide) rfl rfl
  have two : ∀ y ∈ some (Expr.literal (.int 2)), IsWritable y := fun y hy => by
    cases hy
    exact .int (by decide)
  have items : ∀ y ∈ [Expr.literal .nil], IsWritable y := fun y hy =>
    List.mem_singleton.mp hy ▸ .nil
  have h : IsWritable (.filter (.ternary (.binary .notIn (.literal (.str "a")) (.var "rows"))
      (.slice (.var "rows") none none (some (.literal (.int 2))))
      (.set [.literal .nil])) "first" []) :=
    .filter (.ternary (.binary (by decide) (.str "a") rows) (.slice rows nofun nofun two)
      (.set items (by decide))) (by decide) nofun
  exact ⟨h, parse_write h 0⟩

end Expr

end TemplateEngine
