import TemplateEngine.Proofs.Expr.Balance
import TemplateEngine.Proofs.Markup.Nesting
import TemplateEngine.Proofs.Markup.Trimming

/-!
# The places of items

Where an item stands shows in the offsets of the nodes that it gives and nowhere else.  The heads of
tags are read by balanced readers, as expressions are (`Parse.balances_args`), so a head means the
same at every place (`readArgs_place`).  So an item that has been moved is read as the same mark,
up to its offset (`ReadsAs.shift`).
-/

namespace TemplateEngine

namespace Parse

variable {α : Type}

/-! ### Readers of heads -/

theorem balances_identifier (g : Grammar) : Balances 0 (identifier g) (identifier g) := by
  intro l
  refine balancesAt_peek fun offset offset' => ?_
  dsimp only
  split
  · split
    · exact (never_expected _).balances _
    · exact Balances.tail (unbraced_name _) (balances_pure _)
  · exact (never_expected _).balances _

/-- A text that is read as a whole is read the same at every place. -/
theorem Balances.whole {p : Parse α} (hp : Balances 0 p p) {source : String} {base : Nat} {a : α}
    (h : p.whole source base = .ok a) (base' : Nat) : p.whole source base' = .ok a := by
  obtain ⟨ts, t, hts, hrun, ht⟩ := whole_eq_ok_iff.mp h
  obtain ⟨ts', hts', he⟩ := TokenStream.tokens_offset hts base'
  obtain ⟨t', hrun', ht'⟩ := (hp _ _ _ _ rfl hrun).2 ⟨ts', base' + Text.byteLength source.toList⟩ he
  refine whole_eq_ok_iff.mpr ⟨ts', t', hts', hrun', ?_⟩
  rw [t'.peek_lexeme, ht', ← t.peek_lexeme, ht]

end Parse

namespace Markup
open TemplateEngine.Parse

namespace Parse

theorem balances_exprList (mode : Mode) (n : Nat) :
    Balances 0 (exprList mode n) (exprList mode n) := by
  induction n with
  | zero => exact never_tooDeep.balances
  | succ n ih =>
    rw [exprList]
    refine (balances_expr mode.unbraced_grammar).bind fun e =>
      Balances.eat (by decide) ?_ (balances_pure _)
    exact ih.bind fun es => balances_pure _

theorem balances_targets (g : Grammar) (n : Nat) : Balances 0 (targets g n) (targets g n) := by
  induction n with
  | zero => exact never_tooDeep.balances
  | succ n ih =>
    rw [targets]
    refine (balances_identifier g).bind fun first => Balances.eat (by decide) ?_ (balances_pure _)
    exact ih.bind fun more => balances_pure _

theorem balances_loopParts {g : Grammar} (hg : g.Unbraced) (n : Nat) (head : Tag.LoopHead) :
    Balances 0 (loopParts g n head) (loopParts g n head) := by
  induction n generalizing head with
  | zero => exact never_tooDeep.balances
  | succ n ih =>
    -- a part and the comma behind it, if there is one
    have comma : ∀ head, Balances 0 (eat (.symbol .comma) >>= fun _ => loopParts g n head)
        (eat (.symbol .comma) >>= fun _ => loopParts g n head) :=
      fun head => Balances.eat (by decide) (ih head) (ih head)
    have count : ∀ next : Expr → Tag.LoopHead,
        Balances 0 (do expect (.symbol .colon); let e ← plainExpr g
                       let _ ← eat (.symbol .comma); loopParts g n (next e))
          (do expect (.symbol .colon); let e ← plainExpr g
              let _ ← eat (.symbol .comma); loopParts g n (next e)) :=
      fun next => (Balances.expect (by decide)).bind fun _ =>
        (balances_plainExpr hg).bind fun e => comma (next e)
    rw [loopParts]
    refine Balances.eat (unbraced_name _) (comma _) (Balances.eat (unbraced_name _) (count _)
      (Balances.eat (unbraced_name _) (count _) (balances_pure _)))

theorem balances_loopHead (mode : Mode) (n : Nat) :
    Balances 0 (loopHead mode n) (loopHead mode n) := by
  refine (balances_targets mode.grammar n).bind fun names =>
    (Balances.expect (unbraced_name _)).bind fun _ =>
      (balances_expr mode.unbraced_grammar).bind fun iterable => ?_
  cases mode with
  | standard => exact balances_loopParts Mode.standard.unbraced_grammar n _
  | python => exact balances_pure _

/-- The heads of tags are read by balanced readers. -/
theorem balances_args (mode : Mode) (n : Nat) (start : Tag.Start) :
    Balances 0 (args mode n start) (args mode n start) := by
  have hexpr := balances_expr mode.unbraced_grammar
  cases start with
  | expr => exact hexpr.bind fun e => balances_pure _
  | varName => exact (balances_identifier _).bind fun name => balances_pure _
  | exprList => exact (balances_exprList mode n).bind fun es => balances_pure _
  | assign =>
    exact (balances_identifier _).bind fun name => (Balances.expect (by decide)).bind fun _ =>
      hexpr.bind fun e => balances_pure _
  | forLoop => exact (balances_loopHead mode n).bind fun head => balances_pure _
  | none | raw => exact balances_pure _

end Parse

/-! ### Tags -/

/-- A head means the same at every place. -/
theorem readArgs_place {mode : Mode} {start : Tag.Start} {name : String} {head : List Char}
    {base : Nat} {args : Tag.Args} (h : readArgs mode start name head base = .ok args)
    (base' : Nat) : readArgs mode start name head base' = .ok args := by
  cases start with
  | raw => exact h
  | none =>
    unfold readArgs at h ⊢
    dsimp only at h ⊢
    split at h
    · next he => rw [if_pos he, h]
    · obtain ⟨ts, -, h⟩ := bind_eq_ok_iff.mp h
      cases h
  | expr | varName | exprList | assign | forLoop =>
    unfold readArgs at h ⊢
    dsimp only at h ⊢
    split at h
    · cases h
    · next he =>
      rw [if_neg he]
      exact (Parse.balances_args mode _ _).whole h base'

/-- The words of a tag are the same at every place. -/
theorem TagWords.place {mode : Mode} {cs : List Char} {base : Nat} {w : Words}
    (h : TagWords mode cs base w) (base' : Nat) :
    ∃ w', TagWords mode cs base' w' ∧ w'.first = w.first ∧ w'.rest = w.rest := by
  cases h with
  | plain hw h =>
    subst hw
    exact ⟨_, .plain rfl h, rfl, rfl⟩
  | elseIf hm hw hf hv hi =>
    subst hw hv
    exact ⟨_, .elseIf hm rfl hf rfl hi, rfl, rfl⟩

/-! ### Marks -/

/-- The head without its place. -/
def Head.bare (h : Head) : Head := { h with offset := 0 }

/-- The mark without its place. -/
def Mark.bare : Mark → Mark
  | .text s => .text s
  | .output e _ => .output e 0
  | .head h => .head h.bare
  | .closer name => .closer name

/-- The item without its place. -/
def Item.bare : Item → Item
  | .text cs => .text cs
  | .tag source => .tag ⟨source.text, 0, 0⟩
  | .output source => .output ⟨source.text, 0, 0⟩

@[simp] theorem Item.bare_shift (n : Nat) (item : Item) : (item.shift n).bare = item.bare := by
  cases item <;> rfl

theorem Item.eq_text_of_bare {item : Item} {cs : List Char} (h : item.bare = .text cs) :
    item = .text cs := by
  cases item <;> cases h
  rfl

theorem Item.eq_tag_of_bare {item : Item} {source : Source}
    (h : item.bare = (Item.tag source).bare) :
    ∃ offset base, item = .tag ⟨source.text, offset, base⟩ := by
  cases item with
  | tag s =>
    have ht : s.text = source.text := by simpa [Item.bare] using h
    exact ⟨s.offset, s.base, by rw [← ht]⟩
  | text | output => cases h

theorem Item.eq_output_of_bare {item : Item} {source : Source}
    (h : item.bare = (Item.output source).bare) :
    ∃ offset base, item = .output ⟨source.text, offset, base⟩ := by
  cases item with
  | output s =>
    have ht : s.text = source.text := by simpa [Item.bare] using h
    exact ⟨s.offset, s.base, by rw [← ht]⟩
  | text | tag => cases h

/-- An item at another place is read as the same mark at that place. -/
theorem ReadsAs.place {registry : Tag.Registry} {mode : Mode} {item item' : Item} {m : Mark}
    (h : ReadsAs registry mode item m) (hi : item'.bare = item.bare) :
    ∃ m', ReadsAs registry mode item' m' ∧ m'.bare = m.bare := by
  cases h with
  | text cs =>
    rw [Item.eq_text_of_bare hi]
    exact ⟨_, .text cs, rfl⟩
  | output he =>
    obtain ⟨offset, base, rfl⟩ := Item.eq_output_of_bare hi
    exact ⟨_, .output ((balances_expr mode.unbraced_grammar).whole he base), rfl⟩
  | head hw hd ha =>
    obtain ⟨offset, base, rfl⟩ := Item.eq_tag_of_bare hi
    obtain ⟨w', hw', hfirst, hrest⟩ := hw.place base
    rw [← hfirst] at hd ha ⊢
    rw [← hrest] at ha
    exact ⟨_, .head hw' hd (readArgs_place ha _), rfl⟩
  | closer hw hn hr =>
    obtain ⟨offset, base, rfl⟩ := Item.eq_tag_of_bare hi
    obtain ⟨w', hw', hfirst, hrest⟩ := hw.place base
    exact ⟨_, .closer hw' (hfirst ▸ hn) (hrest ▸ hr), rfl⟩

/-- Items at other places are read as the same marks at those places. -/
theorem Reads.place {registry : Tag.Registry} {mode : Mode} {items items' : List Item}
    {marks : List Mark} (h : Reads registry mode items marks)
    (hi : items'.map Item.bare = items.map Item.bare) :
    ∃ marks', Reads registry mode items' marks' ∧ marks'.map Mark.bare = marks.map Mark.bare := by
  induction items generalizing items' marks with
  | nil =>
    rw [List.map_nil, List.map_eq_nil_iff] at hi
    exact ⟨marks, hi ▸ h, rfl⟩
  | cons item items ih =>
    obtain ⟨item', items', rfl, he, hmap⟩ := List.map_eq_cons_iff.mp hi
    by_cases hempty : item = .text []
    · subst hempty
      obtain ⟨ms', hms', hbare⟩ := ih (reads_cons_nil_iff.mp h) hmap
      rw [Item.eq_text_of_bare he]
      exact ⟨ms', reads_cons_nil_iff.mpr hms', hbare⟩
    · have hempty' : item' ≠ .text [] := by
        rintro rfl
        exact hempty (Item.eq_text_of_bare he.symm)
      obtain ⟨m, ms, hread, hms, rfl⟩ := (reads_cons_iff hempty).mp h
      obtain ⟨m', hread', hm⟩ := hread.place he
      obtain ⟨ms', hms', hbare⟩ := ih hms hmap
      exact ⟨m' :: ms', (reads_cons_iff hempty').mpr ⟨m', ms', hread', hms', rfl⟩, by
        rw [List.map_cons, List.map_cons, hm, hbare]⟩

end Markup

end TemplateEngine
