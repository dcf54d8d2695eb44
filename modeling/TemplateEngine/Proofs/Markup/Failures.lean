import TemplateEngine.Proofs.Expr.Uniform
import TemplateEngine.Proofs.Markup.BlockStructure

/-!
# How reading a template fails

The readers of heads are uniform, as the reader of expressions is (`Parse.uniform_args`).  What a
template fails with is then known from its items (`outcome_parse`): the places of their delimiters
and of what stands in them, and the faults of their tokens.
-/

namespace TemplateEngine

/-! ### Values or errors of a kind -/

/-- The result is an error of this kind or a value of that kind. -/
inductive Outcome {α : Type} (F : Error → Prop) (Q : α → Prop) : Except Error α → Prop where
  | ok {a : α} (h : Q a) : Outcome F Q (.ok a)
  | error {e : Error} (h : F e) : Outcome F Q (.error e)

section
variable {α β : Type} {F : Error → Prop} {Q : α → Prop} {P : β → Prop} {x : Except Error α}

theorem Outcome.bind {f : α → Except Error β} (h : Outcome F Q x)
    (hf : ∀ a, Q a → Outcome F P (f a)) : Outcome F P (x >>= f) := by
  cases h with
  | ok h => exact hf _ h
  | error h => exact .error h

theorem Outcome.map {f : α → β} (h : Outcome F Q x) (hf : ∀ a, Q a → P (f a)) :
    Outcome F P (x.map f) := by
  cases h with
  | ok h => exact .ok (hf _ h)
  | error h => exact .error h

theorem Outcome.of_error (h : Outcome F Q x) {e : Error} (he : x = .error e) : F e := by
  subst he
  cases h with
  | error h => exact h

theorem Outcome.foldlM {f : α → β → Except Error α} {xs : List β}
    (h : ∀ a, Q a → ∀ b ∈ xs, Outcome F Q (f a b)) {a : α} (ha : Q a) :
    Outcome F Q (xs.foldlM f a) := by
  induction xs generalizing a with
  | nil => exact .ok ha
  | cons b xs ih =>
    rw [List.foldlM_cons]
    exact (h a ha b (by simp)).bind fun a' ha' => ih (fun a ha b hb => h a ha b (by simp [hb])) ha'

theorem Agree.outcome {R : α → α → Prop} (h : Agree (fun e _ => F e) R x x) :
    Outcome F (fun _ => True) x := by
  cases h with
  | ok _ => exact .ok trivial
  | error h => exact .error h

end

namespace Markup
open TemplateEngine.Parse

variable {E : Error → Error → Prop} {R : Nat → Nat → Prop}

/-! ### Heads -/

namespace Parse

theorem uniform_exprList (hE : Places E R) (mode : Mode) (n : Nat) :
    Uniform E R (exprList mode n) (exprList mode n) := by
  induction n with
  | zero => exact uniform_tooDeep hE
  | succ n ih =>
    rw [exprList]
    refine (uniform_expr hE _).bind fun e => Uniform.eat ?_ (uniform_pure _)
    exact ih.bind fun es => uniform_pure _

theorem uniform_targets (hE : Places E R) (g : Grammar) (n : Nat) :
    Uniform E R (targets g n) (targets g n) := by
  induction n with
  | zero => exact uniform_tooDeep hE
  | succ n ih =>
    rw [targets]
    refine (uniform_identifier hE g).bind fun first => Uniform.eat ?_ (uniform_pure _)
    exact ih.bind fun more => uniform_pure _

theorem uniform_loopParts (hE : Places E R) (g : Grammar) (n : Nat) (head : Tag.LoopHead) :
    Uniform E R (loopParts g n head) (loopParts g n head) := by
  induction n generalizing head with
  | zero => exact uniform_tooDeep hE
  | succ n ih =>
    -- a part and the comma behind it, if there is one
    have count : ∀ next : Expr → Tag.LoopHead,
        Uniform E R (do expect (.symbol .colon); let e ← plainExpr g
                        let _ ← eat (.symbol .comma); loopParts g n (next e))
          (do expect (.symbol .colon); let e ← plainExpr g
              let _ ← eat (.symbol .comma); loopParts g n (next e)) :=
      fun next => (uniform_expect hE _).bind fun _ =>
        (uniform_plainExpr hE g).bind fun e => (uniform_eat _).bind fun _ => ih (next e)
    rw [loopParts]
    exact Uniform.eat ((uniform_eat _).bind fun _ => ih _)
      (Uniform.eat (count _) (Uniform.eat (count _) (uniform_pure _)))

theorem uniform_loopHead (hE : Places E R) (mode : Mode) (n : Nat) :
    Uniform E R (loopHead mode n) (loopHead mode n) := by
  refine (uniform_targets hE mode.grammar n).bind fun names => (uniform_expect hE _).bind fun _ =>
    (uniform_expr hE mode.grammar).bind fun iterable => ?_
  cases mode with
  | standard => exact uniform_loopParts hE _ n _
  | python => exact uniform_pure _

/-- The readers of heads are uniform. -/
theorem uniform_args (hE : Places E R) (mode : Mode) (n : Nat) (start : Tag.Start) :
    Uniform E R (args mode n start) (args mode n start) := by
  have hexpr := uniform_expr hE mode.grammar
  cases start with
  | expr => exact hexpr.bind fun e => uniform_pure _
  | varName => exact (uniform_identifier hE _).bind fun name => uniform_pure _
  | exprList => exact (uniform_exprList hE mode n).bind fun es => uniform_pure _
  | assign =>
    exact (uniform_identifier hE _).bind fun name => (uniform_expect hE _).bind fun _ =>
      hexpr.bind fun e => uniform_pure _
  | forLoop => exact (uniform_loopHead hE mode n).bind fun head => uniform_pure _
  | none | raw => exact uniform_pure _

end Parse

/-- A head is read alike where its tokens are alike. -/
theorem agree_readArgs (hE : Places E R) (mode : Mode) (start : Tag.Start) (name : String)
    {head : List Char} {base base' : Nat} (hb : R base base') (h : SameTokens E R head base base') :
    Agree E Eq (readArgs mode start name head base) (readArgs mode start name head base') := by
  cases start with
  | raw => exact .ok rfl
  | none =>
    unfold readArgs
    dsimp only
    split
    · exact .ok rfl
    · refine Agree.bind (Q := TokenStream.Alike R) ?_ fun _ _ _ => .error (hE _ _ _ (by simp) hb)
      rw [TokenStream.ofString, TokenStream.ofString, String.toList_ofList]
      exact h.tokens.bind fun ts ts' hts => .ok ⟨hts, h.stop⟩
  | expr | varName | exprList | assign | forLoop =>
    unfold readArgs
    dsimp only
    split
    · exact .error (hE _ _ _ (by simp) hb)
    · exact (Parse.uniform_args hE mode _ _).whole hE h

/-! ### Items -/

section
variable {registry : Tag.Registry} {mode : Mode} {F : Error → Prop} {P : Nat → Prop}

/-- The tokens of the text stand at these places, and fail with these errors only. -/
abbrev Tokenizes (F : Error → Prop) (P : Nat → Prop) (cs : List Char) (base : Nat) : Prop :=
  SameTokens (fun e _ => F e) (fun o _ => P o) cs base base

/-- The delimiter of the item stands at one of these places, and what is read of the item has its
tokens there or fails with one of these errors. -/
def Item.Within (registry : Tag.Registry) (mode : Mode) (F : Error → Prop) (P : Nat → Prop) :
    Item → Prop
  | .text _ => True
  | .output source => P source.offset ∧ Tokenizes F P source.text source.base
  | .tag source =>
    P source.offset ∧
      let words := Forest.tagWords mode source
      (registry.get? (String.ofList words.first) mode).isSome = true →
        P words.restOffset ∧ Tokenizes F P words.rest words.restOffset

namespace Forest

/-- All open blocks begin at these places. -/
def Opens (P : Nat → Prop) (f : Forest) : Prop := ∀ b ∈ f.stack, P b.head.offset

theorem Opens.push {f : Forest} (h : f.Opens P) (node : Node) : (f.push node).Opens P := by
  unfold Forest.push
  split
  · exact h
  · next b more hs =>
    rw [Opens, hs, List.forall_mem_cons] at h
    exact List.forall_mem_cons.mpr ⟨by rw [Block.head_push]; exact h.1, h.2⟩

variable (hF : ∀ f o, f ≠ .unterminatedString → P o → F (.parse f o))
include hF

theorem outcome_close {f : Forest} (h : f.Opens P) (closer opener : String) (head : List Char)
    {offset : Nat} (ho : P offset) : Outcome F (Opens P) (f.close closer opener head offset) := by
  unfold close
  split
  · exact .error (hF _ _ (by simp) ho)
  · next b more hs =>
    split
    · exact .error (hF _ _ (by simp) ho)
    · split
      · exact .error (hF _ _ (by simp) ho)
      · refine .ok (Opens.push ?_ _)
        rw [Opens, hs, List.forall_mem_cons] at h
        exact h.2

theorem outcome_addTag {f : Forest} (h : f.Opens P) {head : Head} (ho : P head.offset) :
    Outcome F (Opens P) (f.addTag head) := by
  unfold addTag
  split
  · exact .ok (h.push _)
  · exact .ok (List.forall_mem_cons.mpr ⟨ho, h⟩)
  · unfold addClause
    split
    · exact .error (hF _ _ (by simp) ho)
    · next b more hs =>
      rw [Opens, hs, List.forall_mem_cons] at h
      split
      · exact .error (hF _ _ (by simp) ho)
      · split
        · exact .error (hF _ _ (by simp) ho)
        · exact .ok (List.forall_mem_cons.mpr h)

theorem outcome_readTag {f : Forest} (h : f.Opens P) {source : Source}
    (hs : (Item.tag source).Within registry mode F P) :
    Outcome F (Opens P) (readTag registry mode f source) := by
  obtain ⟨ho, hwords⟩ := hs
  unfold readTag
  dsimp only
  split
  · exact .error (hF _ _ (by simp) ho)
  · split
    · split
      · exact outcome_close hF h _ _ _ ho
      · exact .error (hF _ _ (by simp) ho)
    · next d hd =>
      obtain ⟨hrest, htokens⟩ := hwords (by rw [hd]; rfl)
      split
      · exact .error (hF _ _ (by simp) ho)
      · have hargs := agree_readArgs (fun f o _ => hF f o) mode d.start
          (String.ofList (tagWords mode source).first) hrest htokens
        exact hargs.outcome.bind fun args _ => outcome_addTag hF h ho

theorem outcome_readOutput {f : Forest} (h : f.Opens P) {source : Source}
    (hs : (Item.output source).Within registry mode F P) :
    Outcome F (Opens P) (readOutput mode f source) := by
  obtain ⟨ho, htokens⟩ := hs
  unfold readOutput
  split
  · exact .error (hF _ _ (by simp) ho)
  · exact (Expr.agree_parse (fun f o _ => hF f o) mode htokens).outcome.bind fun e _ =>
      .ok (h.push _)

/-- One item more. -/
theorem outcome_feed {f : Forest} (h : f.Opens P) {item : Item}
    (hi : item.Within registry mode F P) : Outcome F (Opens P) (feed registry mode f item) := by
  cases item with
  | text cs =>
    cases cs with
    | nil => exact .ok h
    | cons c cs => exact .ok (h.push _)
  | output source => exact outcome_readOutput hF h hi
  | tag source => exact outcome_readTag hF h hi

theorem outcome_finish {f : Forest} (h : f.Opens P) : Outcome F (fun _ => True) f.finish := by
  unfold finish
  split
  · exact .ok trivial
  · next b more hs => exact .error (hF _ _ (by simp) (h b (by simp [hs])))

theorem outcome_ofItems {items : List Item} (h : ∀ item ∈ items, item.Within registry mode F P) :
    Outcome F (fun _ => True) (ofItems registry mode items) := by
  have hempty : empty.Opens P := List.forall_mem_nil _
  have hall : Outcome F (Opens P) (items.foldlM (feed registry mode) empty) :=
    Outcome.foldlM (fun f hf item hi => outcome_feed hF hf (h item hi)) hempty
  exact hall.bind fun f hf => outcome_finish hF hf

end Forest

/-! ### Pieces -/

/-- A construct without an end fails where it begins. -/
theorem outcome_readConstruct (hF : ∀ f o, f ≠ .unterminatedString → P o → F (.parse f o))
    (d : Delimiter) {offset : Nat} (ho : P offset) (cs : List Char) :
    Outcome F (fun k => 0 < k.length) (readConstruct d offset cs) := by
  have hinner : Outcome F (fun _ => True) (readInner d offset cs) := by
    unfold readInner
    split
    · exact .error (hF _ _ (by simp) ho)
    · exact .ok trivial
  cases d with
  | comment =>
    unfold readConstruct readComment
    dsimp only
    split
    · exact .error (hF _ _ (by simp) ho)
    · exact .ok (Nat.succ_pos _)
  | output => exact hinner.map fun raw _ => Nat.succ_pos _
  | tag =>
    refine hinner.bind fun raw _ => ?_
    split
    · unfold readVerbatim
      dsimp only
      split
      · exact .error (hF _ _ (by simp) ho)
      · exact .ok (Nat.succ_pos _)
    · exact .ok (Nat.succ_pos _)

/-- A text is cut into pieces, or fails at one of its places. -/
theorem outcome_piecesFrom (hF : ∀ f o, f ≠ .unterminatedString → P o → F (.parse f o))
    {offset : Nat} {cs : List Char} (h : Carried (fun o _ => P o) cs offset offset) :
    Outcome F (fun _ => True) (piecesFrom offset cs) := by
  induction hl : cs.length using Nat.strong_induction_on generalizing offset cs with
  | h l ih =>
    subst hl
    cases cs with
    | nil =>
      rw [piecesFrom]
      exact .ok trivial
    | cons c cs =>
      have hlength : ∀ n, (cs.drop n).length < (c :: cs).length := by
        intro n
        rw [List.length_drop, List.length_cons]
        omega
      rw [piecesFrom]
      split
      · refine Outcome.bind (ih _ (hlength _) ?_ rfl) fun _ _ => .ok trivial
        refine Carried.append (c :: cs.take (textRun cs)) ?_
        rwa [List.cons_append, List.take_append_drop]
      · next d _ =>
        refine (outcome_readConstruct hF d h.start _).bind fun k hk => ?_
        refine Outcome.bind (ih _ (hlength _) ?_ rfl) fun _ _ => .ok trivial
        obtain ⟨n, hn⟩ := Nat.exists_eq_succ_of_ne_zero hk.ne'
        refine Carried.append ((c :: cs).take k.length) ?_
        rwa [hn, List.take_succ_cons, Nat.succ_sub_one, List.cons_append, List.take_append_drop]

/-- **Faults.**  A template that cannot be read fails with an error of the kind that its places and
the tokens of its items give. -/
theorem outcome_parse (hF : ∀ f o, f ≠ .unterminatedString → P o → F (.parse f o)) {source : String}
    (hP : Carried (fun o _ => P o) source.toList 0 0)
    (h : ∀ ps, pieces source = .ok ps → ∀ item ∈ items ps, item.Within registry mode F P) :
    Outcome F (fun _ => True) (parse registry mode source) := by
  have hpieces := outcome_piecesFrom hF hP
  rw [parse, pieces]
  cases hps : piecesFrom 0 source.toList with
  | error e => exact .error (hpieces.of_error hps)
  | ok ps => exact Forest.outcome_ofItems hF (h ps hps)

end

end Markup

end TemplateEngine
