import Mathlib.Data.List.DropRight
import Mathlib.Data.List.Induction
import TemplateEngine.Markup.Item
import TemplateEngine.Proofs.Markup.Cuts

/-!
# What trim markers do

A marker on the right acts on the text behind it when no text and no source lies between
(`trimsOn`), and a marker on the left on the text before it (`trimsBack`).  A text is stripped by
these two and by nothing else (`items_concat_text`, `items_append`): the items of two rows of pieces
are those of the first row, up to the end of its last text, and those of the second row behind the
marker that the first one leaves.

An output or a tag has its own opening delimiter before it in every row that a template is cut into
(`led_of_piecesFrom`), so the items of a row move with its pieces.
-/

namespace TemplateEngine.Markup

/-! ### Pending markers -/

/-- The piece is a text or a source. -/
def Piece.isContent (p : Piece) : Bool := p.kind == .text || p.kind == .source

/-- A marker on the right stands behind the last text or source. -/
def trimsOn (ps : List Piece) : Bool :=
  (ps.reverse.takeWhile fun p => !p.isContent).any fun p => p.kind == .trimRight

/-- A marker on the left stands before the first text or source. -/
def trimsBack (ps : List Piece) : Bool :=
  (ps.takeWhile fun p => !p.isContent).any fun p => p.kind == .trimLeft

theorem trimsOn_concat (ps : List Piece) (p : Piece) :
    trimsOn (ps ++ [p]) = (!p.isContent && (p.kind == .trimRight || trimsOn ps)) := by
  rw [trimsOn, List.reverse_append, List.reverse_singleton, List.singleton_append,
    List.takeWhile_cons]
  cases p.isContent <;> rfl

theorem trimsBack_cons (p : Piece) (ps : List Piece) :
    trimsBack (p :: ps) = (!p.isContent && (p.kind == .trimLeft || trimsBack ps)) := by
  rw [trimsBack, List.takeWhile_cons]
  cases p.isContent <;> rfl

@[simp] theorem trimsBack_shift (n : Nat) (ps : List Piece) :
    trimsBack (ps.map (Piece.shift n)) = trimsBack ps := by
  induction ps with
  | nil => rfl
  | cons p ps ih => rw [List.map_cons, trimsBack_cons, trimsBack_cons, ih]; rfl

/-! ### The items of a row -/

namespace Trimming

/-- Nothing read yet, behind a marker on the right or not. -/
def start (stripNext : Bool) : Trimming := ⟨[], stripNext, false, 0⟩

theorem stripLast_nil : stripLast [] = [] := rfl

theorem stripLast_append {xs ys : List Item} (h : xs ≠ []) :
    stripLast (xs ++ ys) = stripLast xs ++ ys := by
  obtain ⟨x, xs, rfl⟩ := List.exists_cons_of_ne_nil h
  cases x <;> rfl

theorem stripLast_stripLast (xs : List Item) : stripLast (stripLast xs) = stripLast xs := by
  cases xs with
  | nil => rfl
  | cons x xs =>
    cases x with
    | text cs =>
      simp only [stripLast, Text.trimEnd, Text.dropTrailing, List.reverse_reverse,
        List.dropWhile_idempotent]
    | tag source => rfl
    | output source => rfl

theorem stripNext_foldl (ps : List Piece) :
    (ps.foldl step (start false)).stripNext = trimsOn ps := by
  induction ps using List.reverseRecOn with
  | nil => rfl
  | append_singleton ps p ih =>
    rw [List.foldl_append, trimsOn_concat, ← ih]
    simp only [List.foldl_cons, List.foldl_nil, step, Piece.isContent]
    cases p.kind <;> rfl

/-- The items before a row change by the marker at its start only. -/
theorem items_foldl (t : Trimming) (ps : List Piece) :
    (ps.foldl step t).items = (ps.foldl step { t with items := [] }).items ++
      if trimsBack ps then stripLast t.items else t.items := by
  induction ps generalizing t with
  | nil => simp [trimsBack]
  | cons p ps ih =>
    rw [List.foldl_cons, List.foldl_cons, ih, ih (step { t with items := [] } p), trimsBack_cons]
    cases hk : p.kind
    case text | source =>
      -- the new item stands between the marker and the items before
      simp only [step, hk, Piece.isContent]
      split <;> simp [← stripLast_append]
    case trimLeft => simp [step, hk, Piece.isContent, stripLast_stripLast, stripLast_nil]
    all_goals simp [step, hk, Piece.isContent, stripLast_nil]

end Trimming

/-! ### Moving a row -/

/-- Every source has an opening delimiter before it since the last source, or at the start if one
is open there. -/
def Led : Bool → List Piece → Prop
  | _, [] => True
  | b, p :: ps =>
    match p.kind with
    | .tagOpen | .outputOpen => Led true ps
    | .source => b = true ∧ Led false ps
    | _ => Led b ps

/-- The item of a text that begins `n` bytes further on. -/
def Item.shift (n : Nat) : Item → Item
  | .text cs => .text cs
  | .tag source => .tag { source with offset := source.offset + n, base := source.base + n }
  | .output source => .output { source with offset := source.offset + n, base := source.base + n }

namespace Trimming

/-- The second state is the first one, `n` bytes further on; the last opening delimiter counts when
one is open. -/
structure Moved (n : Nat) (b : Bool) (t t' : Trimming) : Prop where
  items : t'.items = t.items.map (Item.shift n)
  stripNext : t'.stripNext = t.stripNext
  opened : b = true → t'.inOutput = t.inOutput ∧ t'.opened = t.opened + n

theorem stripLast_shift (n : Nat) (xs : List Item) :
    stripLast (xs.map (Item.shift n)) = (stripLast xs).map (Item.shift n) := by
  cases xs with
  | nil => rfl
  | cons x xs => cases x <;> rfl

theorem Moved.foldl {n : Nat} {ps : List Piece} {b : Bool} {t t' : Trimming}
    (h : Moved n b t t') (hp : Led b ps) :
    (((ps.map (Piece.shift n)).foldl step t').items =
      (ps.foldl step t).items.map (Item.shift n)) := by
  induction ps generalizing b t t' with
  | nil => exact h.items
  | cons p ps ih =>
    obtain ⟨hi, hs, ho⟩ := h
    rw [List.map_cons, List.foldl_cons, List.foldl_cons]
    have hk' : (p.shift n).kind = p.kind := rfl
    cases hk : p.kind <;> simp only [Led, hk] at hp <;> rw [hk] at hk'
    case source =>
      obtain ⟨rfl, hp⟩ := hp
      obtain ⟨hin, hop⟩ := ho rfl
      refine ih (b := false) ⟨?_, ?_, nofun⟩ hp
      · simp only [step, hk, hk', hi, hin, hop, List.map_cons]
        split <;> simp [Item.shift, Piece.shift]
      · simp only [step, hk, hk']
    case tagOpen | outputOpen =>
      refine ih (b := true) ⟨?_, ?_, fun _ => ?_⟩ hp
      · simpa only [step, hk, hk'] using hi
      · simpa only [step, hk, hk'] using hs
      · simp [step, hk, Piece.shift]
    case text =>
      refine ih ⟨?_, ?_, ?_⟩ hp
      · simp [step, hk, hi, hs, Item.shift, Piece.shift]
      · simp only [step, hk, hk']
      · simpa only [step, hk, hk'] using ho
    case trimLeft =>
      refine ih ⟨?_, ?_, ?_⟩ hp
      · simp only [step, hk, hk', hi, stripLast_shift]
      · simpa only [step, hk, hk'] using hs
      · simpa only [step, hk, hk'] using ho
    all_goals
      refine ih ⟨?_, ?_, ?_⟩ hp
      · simpa only [step, hk, hk'] using hi
      · simp only [step, hk, hk', hs]
      · simpa only [step, hk, hk'] using ho

end Trimming

/-! ### The rows that templates are cut into -/

/-- The pieces are texts, comments, markers and closing delimiters. -/
def Quiet (ps : List Piece) : Prop :=
  ∀ p ∈ ps, p.kind ∉ [PieceKind.tagOpen, .outputOpen, .source]

theorem Quiet.led {ps qs : List Piece} (h : Quiet ps) {b : Bool} (hq : Led b qs) :
    Led b (ps ++ qs) := by
  induction ps with
  | nil => exact hq
  | cons p ps ih =>
    have hp := h p (by simp)
    have ih := ih fun q hq => h q (by simp [hq])
    rw [List.cons_append, Led]
    cases hk : p.kind <;> simp_all

theorem quiet_cons {p : Piece} {ps : List Piece}
    (hp : p.kind ∉ [PieceKind.tagOpen, .outputOpen, .source])
    (h : Quiet ps) : Quiet (p :: ps) :=
  List.forall_mem_cons.mpr ⟨hp, h⟩

theorem Quiet.append {ps qs : List Piece} (hp : Quiet ps) (hq : Quiet qs) : Quiet (ps ++ qs) :=
  fun p hm => (List.mem_append.mp hm).elim (hp p) (hq p)

theorem quiet_nil : Quiet [] := nofun

theorem quiet_ite {c : Prop} [Decidable c] {p : Piece}
    (hp : p.kind ∉ [PieceKind.tagOpen, .outputOpen, .source]) :
    Quiet (if c then [p] else []) := by
  split
  · exact quiet_cons hp quiet_nil
  · exact quiet_nil

theorem quiet_leftMarker (i : Inner) (offset : Nat) : Quiet (i.leftMarker offset) :=
  quiet_ite (by simp)

theorem quiet_rightMarker (i : Inner) (offset : Nat) : Quiet (i.rightMarker offset) :=
  quiet_ite (by simp)

theorem quiet_readComment {offset : Nat} {cs : List Char} {k : Construct}
    (h : readComment offset cs = .ok k) : Quiet k.pieces := by
  unfold readComment at h
  split at h
  · cases h
  · cases h
    exact (quiet_ite (by simp)).append (quiet_cons (by simp) (quiet_ite (by simp)))

theorem quiet_readVerbatim {v : Verbatim} {offset : Nat} {raw cs : List Char} {k : Construct}
    (h : readVerbatim v offset raw cs = .ok k) : Quiet k.pieces := by
  unfold readVerbatim at h
  dsimp only at h
  split at h
  · cases h
  · cases h
    refine ((quiet_leftMarker _ _).append ?_).append (quiet_rightMarker _ _)
    cases v with
    | raw =>
      exact (quiet_rightMarker _ _).append (quiet_cons (by simp) (quiet_leftMarker _ _))
    | comment => exact quiet_cons (by simp) quiet_nil

theorem led_delimited {d : Delimiter} (hd : d ≠ .comment) (offset : Nat) (raw : List Char)
    {ps : List Piece} (h : ∀ b, Led b ps) (b : Bool) :
    Led b ((delimited d offset raw).pieces ++ ps) := by
  let i := Inner.ofChars raw
  have hinside : Led true (i.leftMarker (offset + 2) ++ (⟨.source, i.source, offset + 2 + i.lead⟩ ::
      (i.rightMarker (offset + 2) ++
        (⟨d.closeKind, d.closer, offset + 2 + Text.byteLength raw⟩ :: ps)))) := by
    refine (quiet_leftMarker _ _).led ⟨rfl, (quiet_rightMarker _ _).led ?_⟩
    cases d <;> exact h false
  simp only [delimited, List.append_assoc, List.cons_append, List.nil_append]
  cases d with
  | comment => exact absurd rfl hd
  | tag | output => exact hinside

theorem led_construct {d : Delimiter} {offset : Nat} {cs : List Char} {k : Construct}
    (hk : readConstruct d offset cs = .ok k) {ps : List Piece} (h : ∀ b, Led b ps) (b : Bool) :
    Led b (k.pieces ++ ps) := by
  cases d with
  | comment => exact (quiet_readComment hk).led (h b)
  | output =>
    obtain ⟨raw, -, rfl⟩ := map_eq_ok_iff.mp hk
    exact led_delimited (by simp) offset raw h b
  | tag =>
    obtain ⟨raw, -, hk⟩ := bind_eq_ok_iff.mp hk
    split at hk
    · exact (quiet_readVerbatim hk).led (h b)
    · cases hk
      exact led_delimited (by simp) offset raw h b

/-- A template is cut into a row whose sources have their opening delimiters before them. -/
theorem led_of_piecesFrom {offset : Nat} {cs : List Char} {ps : List Piece}
    (h : piecesFrom offset cs = .ok ps) (b : Bool) : Led b ps := by
  induction hl : cs.length using Nat.strong_induction_on generalizing offset cs ps b with
  | h l ih =>
    subst hl
    cases cs with
    | nil =>
      rw [piecesFrom] at h
      cases h
      trivial
    | cons c cs =>
      rw [piecesFrom] at h
      split at h
      · obtain ⟨more, hmore, hp⟩ := bind_eq_ok_iff.mp h
        cases hp
        exact ih _ (by simp only [List.length_drop, List.length_cons]; omega) hmore b rfl
      · obtain ⟨k, hk, h⟩ := bind_eq_ok_iff.mp h
        obtain ⟨more, hmore, hp⟩ := bind_eq_ok_iff.mp h
        cases hp
        have hlt : (cs.drop (k.length - 1)).length < (c :: cs).length := by
          simp only [List.length_drop, List.length_cons]
          omega
        exact led_construct hk (fun b => ih _ hlt hmore b rfl) b

/-! ### Two rows -/

/-- The items of a row that stands behind a marker on the right or not. -/
def itemsAfter (stripNext : Bool) (ps : List Piece) : List Item :=
  (ps.foldl Trimming.step (.start stripNext)).items.reverse

/-- The items with the end of the last one stripped, if it is a text. -/
def stripEnd (items : List Item) : List Item := (Trimming.stripLast items.reverse).reverse

theorem stripEnd_concat_text (items : List Item) (cs : List Char) :
    stripEnd (items ++ [.text cs]) = items ++ [.text (Text.trimEnd cs)] := by
  simp [stripEnd, Trimming.stripLast]

/-- The items of two rows, of which the second is moved. -/
theorem items_append {qs : List Piece} (hq : ∀ b, Led b qs) (ps : List Piece) (n : Nat) :
    items (ps ++ qs.map (Piece.shift n)) =
      (if trimsBack qs then stripEnd (items ps) else items ps) ++
        (itemsAfter (trimsOn ps) qs).map (Item.shift n) := by
  let t := ps.foldl Trimming.step (.start false)
  have hmoved : Trimming.Moved n false (.start (trimsOn ps)) { t with items := [] } :=
    ⟨rfl, Trimming.stripNext_foldl ps, nofun⟩
  have hitems : items (ps ++ qs.map (Piece.shift n)) =
      ((qs.map (Piece.shift n)).foldl Trimming.step t).items.reverse := by
    rw [items, List.foldl_append]
    rfl
  rw [hitems, t.items_foldl, hmoved.foldl (hq false), trimsBack_shift, List.reverse_append,
    ← List.map_reverse]
  congr 1
  split
  · rw [stripEnd, items, List.reverse_reverse]
    rfl
  · rfl

theorem items_concat_text (ps : List Piece) (cs : List Char) (offset : Nat) :
    items (ps ++ [⟨.text, cs, offset⟩]) =
      items ps ++ [.text (if trimsOn ps then Text.trimStart cs else cs)] := by
  rw [items, List.foldl_append, ← Trimming.stripNext_foldl]
  exact List.reverse_cons

/-- A text without white space at its start and at its end, where markers ask for it. -/
def strip (left right : Bool) (cs : List Char) : List Char :=
  let cs := if left then Text.trimStart cs else cs
  if right then Text.trimEnd cs else cs

theorem strip_nil (left right : Bool) : strip left right [] = [] := by
  cases left <;> cases right <;> rfl

/-- A text between two rows is stripped by the markers that they leave. -/
theorem items_text {qs : List Piece} (hq : ∀ b, Led b qs) (ps : List Piece) (cs : List Char)
    (offset n : Nat) :
    items (ps ++ ⟨.text, cs, offset⟩ :: qs.map (Piece.shift n)) =
      items ps ++ .text (strip (trimsOn ps) (trimsBack qs) cs) ::
        (items qs).map (Item.shift n) := by
  have hon : trimsOn (ps ++ [⟨.text, cs, offset⟩]) = false := by rw [trimsOn_concat]; rfl
  rw [List.append_cons, items_append hq, hon, items_concat_text, stripEnd_concat_text, strip]
  split <;> simp [itemsAfter, items, Trimming.start]

end TemplateEngine.Markup
