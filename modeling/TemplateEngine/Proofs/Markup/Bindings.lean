import TemplateEngine.Proofs.Expr.Rows
import TemplateEngine.Proofs.Markup.Parts

/-!
# Tags that bind a name

The readers of targets take every name that is not reserved (`Grammar.isTarget_iff`), so it can
stand in the head of `assign`, of `capture` and of a loop.  A name that is no keyword is read as a
variable in an output too.  The templates that bind such a name and write it are read as the tag and
the output, one behind the other or one in the other (`parse_assignOutput`, `parse_captureOutput`,
`parse_loopOutput`).
-/

namespace TemplateEngine

/-! ### Targets -/

/-- The reader of targets takes the name. -/
def Grammar.IsTarget (g : Grammar) (n : String) : Prop := (Parse.identifier g).whole n 0 = .ok n

namespace Parse

variable {g : Grammar} {n : String} {rest : List Lexeme}

theorem consumes_identifier (hn : g.reserved.contains n = false) :
    Consumes (identifier g) [.word (.name n)] rest n := by
  refine consumes_peek fun l offset hl => ?_
  rw [List.singleton_append, List.headD_cons] at hl
  subst hl
  dsimp only
  rw [if_neg (by simpa using hn)]
  exact consumes_tail (consumes_pure n rest)

theorem identifier_eq_ok {s t : TokenStream} (h : identifier g s = .ok (n, t)) :
    .word (.name n) ∈ s.lexemes ∧ g.reserved.contains n = false := by
  have never := never_expected (α := String) "an identifier"
  have hpeek (f : Token → Parse String) : (peek >>= f) s = f s.peek s := rfl
  rw [identifier, hpeek] at h
  generalize hl : s.peek.lexeme = l at h
  cases l with
  | word w =>
    cases w with
    | name m =>
      dsimp only at h
      split at h
      · exact absurd h (never _ _)
      · next hfree =>
        cases h
        refine ⟨?_, by simpa using hfree⟩
        rw [s.peek_lexeme] at hl
        cases hls : s.lexemes with
        | nil =>
          rw [hls] at hl
          cases hl
        | cons l ls =>
          rw [hls] at hl
          exact List.mem_cons.mpr (.inl hl.symm)
    | symbol => exact absurd h (never _ _)
  | int | float | str | stop => exact absurd h (never _ _)

end Parse

/-- The names that can be bound are those that are not reserved. -/
theorem Grammar.isTarget_iff {g : Grammar} {n : String} :
    g.IsTarget n ↔ IsIdentifier n ∧ g.reserved.contains n = false := by
  rw [IsTarget, Parse.whole_eq_ok_iff]
  constructor
  · rintro ⟨ts, t, hts, hn, -⟩
    obtain ⟨hmem, hfree⟩ := Parse.identifier_eq_ok hn
    exact ⟨TokenStream.isIdentifier_of_mem_tokens hts hmem, hfree⟩
  · rintro ⟨hn, hfree⟩
    obtain ⟨ts, hts, hl⟩ := Lexes.name hn 0
    have hread : Parse.Consumes (Parse.identifier g) [.word (.name n)] [] n :=
      Parse.consumes_identifier hfree
    obtain ⟨t, hp, ht⟩ := hread ⟨ts, 0 + Text.byteLength n.toList⟩ hl
    exact ⟨ts, t, hts, hp, by rw [t.peek_lexeme, ht]; rfl⟩

/-- A target that is no keyword is a variable. -/
theorem Grammar.IsTarget.isVariable {g : Grammar} {n : String} (hn : g.IsTarget n)
    (hk : g.keywords.lookup n = none) : g.IsVariable n :=
  have h := Grammar.isTarget_iff.mp hn
  ⟨h.1, hk, h.2⟩

/-- A variable is an expression. -/
theorem Grammar.IsVariable.spells {mode : Mode} {n : String} (hn : mode.grammar.IsVariable n) :
    Spells mode [.word (.name n)] (.var n) := by
  obtain ⟨t, ht⟩ := Parse.hasTrees mode.isTable (Nat.zero_le _) n [] hn (by simp)
  have hvar : t = .var n := ht.grouped.eq_of_inorder (.var n) ht.inorder
  exact hvar ▸ ht.spells

namespace Markup

/-! ### Heads -/

namespace Parse
open TemplateEngine.Parse

variable {mode : Mode} {n : String} {ls : List Lexeme} {x : Expr}

theorem consumes_expr (hx : Spells mode ls x) : Consumes (expr mode.grammar) ls [] x :=
  fun s hs => hx s (by simpa using hs)

theorem consumes_assign (hn : mode.grammar.IsTarget n) (hx : Spells mode ls x) (k : Nat) :
    Consumes (args mode k .assign) (.word (.name n) :: .word (.symbol .assign) :: ls) []
      (.assign n x) := by
  have hfree := (Grammar.isTarget_iff.mp hn).2
  exact (consumes_identifier hfree).bind
    (consumes_expect ((consumes_expr hx).andThen (consumes_pure _ [])))

theorem consumes_varName (hn : mode.grammar.IsTarget n) (k : Nat) :
    Consumes (args mode k .varName) [.word (.name n)] [] (.varName n) :=
  (consumes_identifier (Grammar.isTarget_iff.mp hn).2).andThen (consumes_pure _ [])

/-- One target stands in front of anything but a comma. -/
theorem consumes_targets {rest : List Lexeme} (hn : mode.grammar.IsTarget n)
    (hrest : rest.headD .stop ≠ .word (.symbol .comma)) (k : Nat) :
    Consumes (targets mode.grammar (k + 1)) [.word (.name n)] rest [n] := by
  rw [targets]
  exact (consumes_identifier (Grammar.isTarget_iff.mp hn).2).andThen
    (consumes_eat_of_ne hrest (consumes_pure [n] rest))

/-- No parts of a loop at the end of its head. -/
theorem consumes_loopParts (head : Tag.LoopHead) (k : Nat) :
    Consumes (loopParts mode.grammar (k + 1) head) [] [] head := by
  rw [loopParts]
  exact consumes_eat_of_ne (by simp) (consumes_eat_of_ne (by simp)
    (consumes_eat_of_ne (by simp) (consumes_pure head [])))

theorem consumes_forLoop (hn : mode.grammar.IsTarget n) (hx : Spells mode ls x) (k : Nat) :
    Consumes (args mode (k + 1) .forLoop) (.word (.name n) :: .word (.name "in") :: ls) []
      (.forLoop ⟨[n], x, none, none, false⟩) := by
  have hhead : Consumes (loopHead mode (k + 1)) (.word (.name n) :: .word (.name "in") :: ls) []
      ⟨[n], x, none, none, false⟩ := by
    refine (consumes_targets hn (by simp) k).bind (consumes_expect ?_)
    refine (consumes_expr hx).andThen ?_
    cases mode with
    | standard => exact consumes_loopParts _ k
    | python => exact consumes_pure _ []
  exact hhead.andThen (consumes_pure _ [])

end Parse

/-! ### Templates -/

/-- A name in an output. -/
def nameOutput (n : String) : String := "\x7b\x7b " ++ n ++ " \x7d\x7d"

/-- An assignment, and an output of the name. -/
def assignOutput (n e : String) : String :=
  "\x7b% assign " ++ n ++ " = " ++ e ++ " %\x7d" ++ nameOutput n

/-- A captured text, and an output of the name. -/
def captureOutput (n t : String) : String :=
  "\x7b% capture " ++ n ++ " %\x7d" ++ t ++ "\x7b% endcapture %\x7d" ++ nameOutput n

/-- A loop, and in it an output of the name. -/
def loopOutput (n e : String) : String :=
  "\x7b% for " ++ n ++ " in " ++ e ++ " %\x7d" ++ nameOutput n ++ "\x7b% endfor %\x7d"

variable {mode : Mode} {n e : String} {base : Nat} {x : Expr}

/-- A name in an output, as a part. -/
def Part.ofVariable (hn : mode.grammar.IsVariable n) : Part where
  text := []
  kind := .output
  source := n.toList
  lexemes := [.word (.name n)]
  notMem_text := nofun
  kind_ne := by decide
  lexes := .name hn.identifier
  closes := closes_nil.cons (unbraced_name n)
  ne_verbatim := nofun

@[simp] theorem Part.chars_ofVariable (hn : mode.grammar.IsVariable n) :
    (ofVariable hn).chars = (nameOutput n).toList := by
  simp [chars, ofVariable, nameOutput, padded, Delimiter.wrap, Delimiter.opener, Delimiter.closer]

/-- What the registry says of `assign`. -/
theorem exists_assign (mode : Mode) :
    ∃ d, StandsFor .standard mode "assign" d .assign .standalone .assign := by
  cases mode <;> exact ⟨_, rfl, rfl, rfl, rfl, rfl⟩

/-- What it says of `capture`. -/
theorem exists_capture (mode : Mode) :
    ∃ d, StandsFor .standard mode "capture" d .varName .opener .capture := by
  cases mode <;> exact ⟨_, rfl, rfl, rfl, rfl, rfl⟩

/-- What it says of `for`. -/
theorem exists_for (mode : Mode) :
    ∃ d, StandsFor .standard mode "for" d .forLoop .opener .forLoop := by
  cases mode <;> exact ⟨_, rfl, rfl, rfl, rfl, rfl⟩

section
variable (hn : mode.grammar.IsTarget n) (hk : mode.grammar.keywords.lookup n = none)

include hn hk

/-- An assignment is read as a tag in front of the output. -/
theorem parse_assignOutput (h : Expr.parse mode e base = .ok x) :
    ∃ head offset, head.descriptor.behavior = .assign ∧ head.args = .assign n x ∧
      parse .standard mode (assignOutput n e) =
        .ok [.tag head [] [], .output (.var n) offset] := by
  have hv := hn.isVariable hk
  obtain ⟨ts, hts, hx⟩ := Expr.parse_eq_ok_iff.mp h
  obtain ⟨d, hd⟩ := exists_assign mode
  have hlexes : Lexes (n.toList ++ ' ' :: '=' :: ' ' :: e.toList)
      (.word (.name n) :: .word (.symbol .assign) :: ts.map Token.lexeme) :=
    .name_append hv.identifier (by simp; decide)
      (.blank (by decide) (.symbol_append_blank .assign (.blank (by decide) (.of_tokens hts))))
  let tag : TagSource := .ofHead "assign" (by decide) hlexes
    (.cons (unbraced_name n) (.cons (by decide) hx.closes))
  let first := tag.part [] List.not_mem_nil
  let second := Part.ofVariable hv
  have hsource : assignOutput n e = String.ofList ([first, second].flatMap Part.chars) := by
    rw [← String.toList_inj]
    simp [assignOutput, first, second, tag]
  have hfirst : first.Adds .standard mode .empty _ := tag.adds_standalone List.not_mem_nil hd
    (by decide) (List.cons_ne_nil _ _) fun k => Parse.consumes_assign hn hx (k + 1)
  have hsecond (f : Forest) : second.Adds .standard mode f _ := Part.adds_output rfl hv.spells
  refine ⟨⟨"assign", d, .assign n x, first.start 0⟩,
    second.start (0 + Text.byteLength first.chars), hd.behavior, rfl, ?_⟩
  rw [hsource, parse_parts, Forest.ofItems, hfirst.foldlM_rowItems, (hsecond _).foldlM_rowItems]
  rfl

/-- A captured text without opening braces is the body of a tag in front of the output. -/
theorem parse_captureOutput {t : String} (ht : '\x7b' ∉ t.toList) :
    ∃ head offset, head.descriptor.behavior = .capture ∧ head.args = .varName n ∧
      parse .standard mode (captureOutput n t) =
        .ok [.tag head (textNodes t.toList) [], .output (.var n) offset] := by
  have hv := hn.isVariable hk
  obtain ⟨d, hd⟩ := exists_capture mode
  let head (offset : Nat) : Head := ⟨"capture", d, .varName n, offset⟩
  let opening : TagSource := .ofHead "capture" (by decide) (.name hv.identifier)
    (closes_nil.cons (unbraced_name n))
  let closing : TagSource := .ofName "endcapture" (by decide)
  let first := opening.part [] List.not_mem_nil
  let second := closing.part t.toList ht
  let third := Part.ofVariable hv
  have hsource : captureOutput n t =
      String.ofList ([first, second, third].flatMap Part.chars) := by
    rw [← String.toList_inj]
    simp [captureOutput, first, second, third, opening, closing]
  have hfirst : first.Adds .standard mode .empty fun offset => ⟨[], [.ofHead (head offset)]⟩ :=
    opening.adds_opener List.not_mem_nil hd (by decide) (List.cons_ne_nil _ _)
      fun k => Parse.consumes_varName hn (k + 1)
  have hnone : Tag.Registry.standard.get? "endcapture" mode = none := by cases mode <;> rfl
  have hcloses : Tag.closes? "endcapture" = some "capture" := by decide
  have hsecond (offset : Nat) : second.Adds .standard mode ⟨[], [.ofHead (head offset)]⟩ _ :=
    closing.adds_closer ht hnone hcloses rfl
      (Forest.close_foldl_push [] [] (head offset) (textNodes t.toList) _)
  have hthird (f : Forest) : third.Adds .standard mode f _ := Part.adds_output rfl hv.spells
  refine ⟨head (first.start 0),
    third.start (0 + Text.byteLength first.chars + Text.byteLength second.chars), hd.behavior,
    rfl, ?_⟩
  rw [hsource, parse_parts, Forest.ofItems, hfirst.foldlM_rowItems,
    (hsecond _).foldlM_rowItems, (hthird _).foldlM_rowItems]
  rfl

/-- The output is the body of a loop over one target. -/
theorem parse_loopOutput (h : Expr.parse mode e base = .ok x) :
    ∃ head offset, head.descriptor.behavior = .forLoop ∧
      head.args = .forLoop ⟨[n], x, none, none, false⟩ ∧
      parse .standard mode (loopOutput n e) =
        .ok [.tag head [.output (.var n) offset] []] := by
  have hv := hn.isVariable hk
  obtain ⟨ts, hts, hx⟩ := Expr.parse_eq_ok_iff.mp h
  obtain ⟨d, hd⟩ := exists_for mode
  let head (offset : Nat) : Head := ⟨"for", d, .forLoop ⟨[n], x, none, none, false⟩, offset⟩
  have hlexes : Lexes (n.toList ++ ' ' :: ("in".toList ++ ' ' :: e.toList))
      (.word (.name n) :: .word (.name "in") :: ts.map Token.lexeme) :=
    .name_append hv.identifier (by simp; decide) (.blank (by decide)
      (.name_append (by decide) (by simp; decide) (.blank (by decide) (.of_tokens hts))))
  let opening : TagSource := .ofHead "for" (by decide) hlexes
    (.cons (unbraced_name n) (.cons (unbraced_name "in") hx.closes))
  let closing : TagSource := .ofName "endfor" (by decide)
  let first := opening.part [] List.not_mem_nil
  let second := Part.ofVariable hv
  let third := closing.part [] List.not_mem_nil
  have hsource : loopOutput n e = String.ofList ([first, second, third].flatMap Part.chars) := by
    rw [← String.toList_inj]
    simp [loopOutput, first, second, third, opening, closing]
  have hfirst : first.Adds .standard mode .empty fun offset => ⟨[], [.ofHead (head offset)]⟩ :=
    opening.adds_opener List.not_mem_nil hd (by decide) (List.cons_ne_nil _ _)
      fun k => Parse.consumes_forLoop hn hx k
  have hsecond (f : Forest) : second.Adds .standard mode f _ := Part.adds_output rfl hv.spells
  have hnone : Tag.Registry.standard.get? "endfor" mode = none := by cases mode <;> rfl
  have hcloses : Tag.closes? "endfor" = some "for" := by decide
  have hthird (offset : Nat) (node : Node) :
      third.Adds .standard mode (Forest.push ⟨[], [.ofHead (head offset)]⟩ node) _ :=
    closing.adds_closer List.not_mem_nil hnone hcloses rfl
      (Forest.close_foldl_push [] [] (head offset) [node] _)
  refine ⟨head (first.start 0), second.start (0 + Text.byteLength first.chars), hd.behavior, rfl,
    ?_⟩
  rw [hsource, parse_parts, Forest.ofItems, hfirst.foldlM_rowItems, (hsecond _).foldlM_rowItems]
  exact (congrArg (· >>= Forest.finish) ((hthird _ _).foldlM_rowItems _ []))

end

end Markup

end TemplateEngine
