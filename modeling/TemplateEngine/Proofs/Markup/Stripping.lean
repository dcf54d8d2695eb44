import TemplateEngine.Proofs.Markup.Sources

/-!
# Which texts are stripped

Reading the items of a template keeps a pending marker and the last opening delimiter, and goes back
to the last item at a marker on the left.  What comes out is a rule on the row of pieces alone
(`Resolves`): a text is stripped by the markers beside it, with no other text and no source between,
and a tag or an output is what its own three pieces say, whatever markers there are.
-/

namespace TemplateEngine.Markup

/-! ### Markers beside a text -/

/-- A marker on the right is in the row, with no text and no source behind it. -/
def MarkedRight (before : List Piece) : Prop :=
  ∃ front m between, before = front ++ m :: between ∧ m.kind = .trimRight ∧
    ∀ q ∈ between, q.isContent = false

/-- A marker on the left is in the row, with no text and no source before it. -/
def MarkedLeft (after : List Piece) : Prop :=
  ∃ between m rest, after = between ++ m :: rest ∧ m.kind = .trimLeft ∧
    ∀ q ∈ between, q.isContent = false

theorem trimsBack_iff (ps : List Piece) : trimsBack ps = true ↔ MarkedLeft ps := by
  induction ps with
  | nil => exact ⟨nofun, fun ⟨between, m, rest, h, _⟩ => by simp at h⟩
  | cons p ps ih =>
    rw [trimsBack_cons, Bool.and_eq_true, Bool.or_eq_true, ih, Bool.not_eq_true', beq_iff_eq]
    constructor
    · rintro ⟨hp, hk | ⟨between, m, rest, rfl, hm, hb⟩⟩
      · exact ⟨[], p, ps, rfl, hk, nofun⟩
      · exact ⟨p :: between, m, rest, rfl, hm, List.forall_mem_cons.mpr ⟨hp, hb⟩⟩
    · rintro ⟨between, m, rest, he, hm, hb⟩
      cases between with
      | nil =>
        obtain ⟨rfl, rfl⟩ := List.cons.inj he
        exact ⟨by rw [Piece.isContent, hm]; rfl, .inl hm⟩
      | cons q between =>
        obtain ⟨rfl, rfl⟩ := List.cons.inj he
        obtain ⟨hq, hb⟩ := List.forall_mem_cons.mp hb
        exact ⟨hq, .inr ⟨between, m, rest, rfl, hm, hb⟩⟩

theorem trimsOn_iff (ps : List Piece) : trimsOn ps = true ↔ MarkedRight ps := by
  induction ps using List.reverseRecOn with
  | nil => exact ⟨nofun, fun ⟨front, m, between, h, _⟩ => by simp at h⟩
  | append_singleton ps p ih =>
    rw [trimsOn_concat, Bool.and_eq_true, Bool.or_eq_true, ih, Bool.not_eq_true', beq_iff_eq]
    constructor
    · rintro ⟨hp, hk | ⟨front, m, between, rfl, hm, hb⟩⟩
      · exact ⟨ps, p, [], rfl, hk, nofun⟩
      · exact ⟨front, m, between ++ [p], by simp, hm, by simpa [or_imp, forall_and] using ⟨hb, hp⟩⟩
    · rintro ⟨front, m, between, he, hm, hb⟩
      rcases List.eq_nil_or_concat between with rfl | ⟨between, q, rfl⟩
      · obtain ⟨-, hpm⟩ := List.append_inj' he rfl
        obtain rfl := List.singleton_inj.mp hpm
        exact ⟨by rw [Piece.isContent, hm]; rfl, .inl hm⟩
      · rw [List.concat_eq_append] at he hb
        rw [← List.cons_append, ← List.append_assoc] at he
        obtain ⟨rfl, hpq⟩ := List.append_inj' he rfl
        obtain rfl := List.singleton_inj.mp hpq
        exact ⟨hb _ (by simp), .inr ⟨front, m, between, rfl, hm, fun q hq => hb q (by simp [hq])⟩⟩

/-! ### The delimiter of a source -/

/-- The row ends with this opening delimiter and markers on the left behind it. -/
def OpenedBy (before : List Piece) (o : Piece) : Prop :=
  ∃ front markers, before = front ++ o :: markers ∧ ∀ q ∈ markers, q.kind = .trimLeft

theorem OpenedBy.append {before : List Piece} {o : Piece} (h : OpenedBy before o)
    (ps : List Piece) : OpenedBy (ps ++ before) o := by
  obtain ⟨front, markers, rfl, hm⟩ := h
  exact ⟨ps ++ front, markers, by simp, hm⟩

/-- Every source of the row has its own opening delimiter before it. -/
def Opened (ps : List Piece) : Prop :=
  ∀ before p after, ps = before ++ p :: after → p.kind = .source →
    ∃ o, (o.kind = .tagOpen ∨ o.kind = .outputOpen) ∧ OpenedBy before o

theorem Quiet.opened {ps : List Piece} (h : Quiet ps) : Opened ps := by
  rintro before p after rfl hk
  exact absurd (h p (by simp)) (by simp [hk])

theorem Opened.append {ps qs : List Piece} (hp : Opened ps) (hq : Opened qs) :
    Opened (ps ++ qs) := by
  intro before p after he hk
  rcases List.append_eq_append_iff.mp he with ⟨more, rfl, rfl⟩ | ⟨more, rfl, hrest⟩
  · obtain ⟨o, ho, hopened⟩ := hq more p after rfl hk
    exact ⟨o, ho, hopened.append ps⟩
  · cases more with
    | nil =>
      obtain ⟨o, ho, hopened⟩ := hq [] p after (by simpa using hrest.symm) hk
      exact ⟨o, ho, by simpa using hopened.append before⟩
    | cons q more =>
      obtain ⟨rfl, -⟩ := List.cons.inj hrest
      exact hp before p more rfl hk

/-- A row with one source, behind its opening delimiter and the markers there. -/
theorem opened_row {o s : Piece} {markers quiet : List Piece}
    (ho : o.kind = .tagOpen ∨ o.kind = .outputOpen) (hm : ∀ q ∈ markers, q.kind = .trimLeft)
    (hq : Quiet quiet) : Opened (o :: markers ++ s :: quiet) := by
  intro before p after he hk
  have hfront : p ∉ o :: markers := by
    intro hp
    rcases List.mem_cons.mp hp with rfl | hp
    · simp [hk] at ho
    · exact absurd (hm p hp) (by simp [hk])
  have hback : p ∉ quiet := fun hp => absurd (hq p hp) (by simp [hk])
  -- no part of the row but the middle one has a source
  have hbefore : before = o :: markers := by
    rcases List.append_eq_append_iff.mp he with ⟨more, rfl, hs⟩ | ⟨more, hf, hs⟩
    · cases more with
      | nil => exact List.append_nil _
      | cons q more =>
        obtain ⟨-, rfl⟩ := List.cons.inj hs
        exact absurd (by simp) hback
    · cases more with
      | nil => simpa using hf.symm
      | cons q more =>
        obtain ⟨rfl, -⟩ := List.cons.inj hs
        rw [hf] at hfront
        exact absurd (by simp) hfront
  exact ⟨o, ho, [], markers, hbefore, hm⟩

/-- A tag or an output has one source. -/
theorem opened_delimited {d : Delimiter} (hd : d ≠ .comment) (offset : Nat) (raw : List Char) :
    Opened (delimited d offset raw).pieces := by
  let i := Inner.ofChars raw
  have hopening : (Inner.openingPiece d offset).kind = .tagOpen ∨
      (Inner.openingPiece d offset).kind = .outputOpen := by
    cases d <;> simp_all [Inner.openingPiece, Delimiter.openKind]
  have hmarkers : ∀ q ∈ i.leftMarker (offset + 2), q.kind = .trimLeft := by
    rw [Inner.leftMarker]
    split <;> simp
  have hquiet : Quiet (i.rightMarker (offset + 2) ++ [i.closingPiece d offset]) := by
    refine (quiet_rightMarker _ _).append (quiet_cons ?_ quiet_nil)
    cases d <;> simp [Inner.closingPiece, Delimiter.closeKind]
  rw [pieces_delimited]
  exact opened_row hopening hmarkers hquiet

theorem IsConstruct.opened {offset : Nat} {own : List Char} {ps : List Piece}
    (h : IsConstruct offset own ps) : Opened ps := by
  cases h with
  | comment hb => exact (quiet_commentPieces hb _).opened
  | block hp hv hi hb => exact (quiet_blockPieces hi hb _ _).opened
  | source hd hp hv => exact opened_delimited hd _ _

theorem Layout.opened {offset : Nat} {cs : List Char} {ps : List Piece}
    (h : Layout offset cs ps) : Opened ps := by
  induction h with
  | nil offset => exact quiet_nil.opened
  | @text offset cs rest ps hne h ih =>
    have htext : Quiet [⟨.text, cs, offset⟩] := quiet_cons (by simp) quiet_nil
    exact htext.opened.append ih
  | construct hk h ih => exact hk.opened.append ih

/-! ### The item of a piece -/

/-- What the rows before and behind a text or a source say about its item. -/
inductive Resolves (before : List Piece) (p : Piece) (after : List Piece) : Item → Prop where
  | text (left right : Bool) (hk : p.kind = .text) (hl : left = true ↔ MarkedRight before)
      (hr : right = true ↔ MarkedLeft after) :
      Resolves before p after (.text (strip left right p.lexeme))
  | tag {o : Piece} (hk : p.kind = .source) (ho : o.kind = .tagOpen) (hb : OpenedBy before o) :
      Resolves before p after (.tag ⟨p.lexeme, o.offset, p.offset⟩)
  | output {o : Piece} (hk : p.kind = .source) (ho : o.kind = .outputOpen)
      (hb : OpenedBy before o) :
      Resolves before p after (.output ⟨p.lexeme, o.offset, p.offset⟩)

namespace Trimming

/-- Behind an opening delimiter and markers on the left the next source is that of the delimiter. -/
theorem opened_foldl {before : List Piece} {o : Piece} (h : OpenedBy before o)
    (ho : o.kind = .tagOpen ∨ o.kind = .outputOpen) (t : Trimming) :
    (before.foldl step t).inOutput = (o.kind == .outputOpen) ∧
      (before.foldl step t).opened = o.offset := by
  obtain ⟨front, markers, rfl, hm⟩ := h
  rw [List.foldl_append, List.foldl_cons]
  have hopener : ∀ t : Trimming, (step t o).inOutput = (o.kind == .outputOpen) ∧
      (step t o).opened = o.offset := by
    intro t
    rcases ho with ho | ho <;> simp [step, ho]
  generalize front.foldl step t = t'
  have hmarkers : ∀ t : Trimming, (markers.foldl step t).inOutput = t.inOutput ∧
      (markers.foldl step t).opened = t.opened := by
    induction markers with
    | nil => exact fun t => ⟨rfl, rfl⟩
    | cons m markers ih =>
      intro t
      have hk := hm m (by simp)
      rw [List.foldl_cons]
      have h := ih (fun q hq => hm q (by simp [hq])) (step t m)
      simpa [step, hk] using h
  obtain ⟨hin, hat⟩ := hmarkers (step t' o)
  rw [hin, hat]
  exact hopener t'

theorem length_stripLast (items : List Item) : (stripLast items).length = items.length := by
  cases items with
  | nil => rfl
  | cons item items => cases item <;> rfl

/-- One item comes of each text and each source. -/
theorem length_foldl (ps : List Piece) (t : Trimming) :
    (ps.foldl step t).items.length = t.items.length + (ps.filter Piece.isContent).length := by
  induction ps generalizing t with
  | nil => rfl
  | cons p ps ih =>
    rw [List.foldl_cons, ih, List.filter_cons]
    cases hk : p.kind <;> simp [step, hk, Piece.isContent, length_stripLast] <;> omega

end Trimming

theorem length_items (ps : List Piece) :
    (items ps).length = (ps.filter Piece.isContent).length := by
  rw [items, List.length_reverse, Trimming.length_foldl]
  exact Nat.zero_add _

namespace Trimming

/-- The items up to a text or a source, once the pieces behind it have been read. -/
def settled (t : Trimming) (p : Piece) (after : List Piece) : List Item :=
  if trimsBack after then stripLast (step t p).items else (step t p).items

theorem settled_text {p : Piece} (hk : p.kind = .text) (t : Trimming) (after : List Piece) :
    t.settled p after = .text (strip t.stripNext (trimsBack after) p.lexeme) :: t.items := by
  simp only [settled, step, hk, stripLast, strip]
  split <;> rfl

theorem settled_source {p : Piece} (hk : p.kind = .source) (t : Trimming) (after : List Piece) :
    t.settled p after = (if t.inOutput then .output ⟨p.lexeme, t.opened, p.offset⟩
      else .tag ⟨p.lexeme, t.opened, p.offset⟩) :: t.items := by
  simp only [settled, step, hk]
  cases t.inOutput <;> simp [stripLast]

/-- The pieces behind a text or a source say no more about it than whether they strip it. -/
theorem exists_settled (t : Trimming) (p : Piece) (after : List Piece) :
    ∃ later, (after.foldl step (step t p)).items = later ++ t.settled p after :=
  ⟨_, items_foldl (step t p) after⟩

end Trimming

/-- A text or a source settles its own item. -/
theorem exists_resolves {before after : List Piece} {p : Piece}
    (ho : Opened (before ++ p :: after)) (hp : p.isContent = true) :
    let t := before.foldl Trimming.step (.start false)
    ∃ item, t.settled p after = item :: t.items ∧ Resolves before p after item := by
  intro t
  rw [Piece.isContent, Bool.or_eq_true, beq_iff_eq, beq_iff_eq] at hp
  rcases hp with hk | hk
  · rw [Trimming.settled_text hk, Trimming.stripNext_foldl]
    exact ⟨_, rfl, .text _ _ hk (trimsOn_iff before) (trimsBack_iff after)⟩
  · obtain ⟨o, hkind, hopened⟩ := ho before p after rfl hk
    obtain ⟨hin, hat⟩ := Trimming.opened_foldl hopened hkind (.start false)
    rw [Trimming.settled_source hk, hin, hat]
    rcases hkind with hkind | hkind
    · exact ⟨.tag ⟨p.lexeme, o.offset, p.offset⟩, by rw [hkind]; rfl, .tag hk hkind hopened⟩
    · exact ⟨.output ⟨p.lexeme, o.offset, p.offset⟩, by rw [hkind]; rfl, .output hk hkind hopened⟩

/-- **Trim markers strip what is beside them and nothing else.**  A template has one item for each
text and each source among its pieces, in order.  The item of a source is the tag or the output that
its own opening delimiter begins, with the offsets of both, and no marker changes it.  The item of a
text is the text, without white space at its start just when a marker on the right stands before it
with no text and no source between, and without white space at its end just when a marker on the
left stands behind it with none between. -/
theorem items_resolved {source : String} {ps : List Piece} (h : pieces source = .ok ps) :
    (items ps).length = (ps.filter Piece.isContent).length ∧
    ∀ before p after, ps = before ++ p :: after → p.isContent = true →
      ∃ item, (items ps)[(before.filter Piece.isContent).length]? = some item ∧
        Resolves before p after item := by
  refine ⟨length_items ps, ?_⟩
  rintro before p after rfl hp
  let t := before.foldl Trimming.step (.start false)
  obtain ⟨item, hsettled, hitem⟩ := exists_resolves (layout_of_piecesFrom h).opened hp
  obtain ⟨later, hlater⟩ := t.exists_settled p after
  have hrow : items (before ++ p :: after) = t.items.reverse ++ item :: later.reverse := by
    have hfold : items (before ++ p :: after) =
        (after.foldl Trimming.step (t.step p)).items.reverse := by
      rw [items, List.foldl_append]
      rfl
    rw [hfold, hlater, hsettled, List.reverse_append, List.reverse_cons, List.append_assoc]
    rfl
  have hlength : t.items.reverse.length = (before.filter Piece.isContent).length := by
    rw [List.length_reverse, Trimming.length_foldl]
    exact Nat.zero_add _
  refine ⟨item, ?_, hitem⟩
  rw [hrow, ← hlength, List.getElem?_append_right (Nat.le_refl _), Nat.sub_self]
  rfl

/-- A text between a marker of a comment and one of an output, and a `raw` block with markers that
point at its body. -/
theorem items_resolved_comment : ∃ ps,
    pieces "\x7b#- x -#\x7d a \x7b\x7b- b -\x7d\x7d\x7b% raw -%\x7d c \x7b%- endraw %\x7d" =
      .ok ps ∧
    (items ps).length = (ps.filter Piece.isContent).length ∧
    ∀ before p after, ps = before ++ p :: after → p.isContent = true →
      ∃ item, (items ps)[(before.filter Piece.isContent).length]? = some item ∧
        Resolves before p after item := by
  have hok : (pieces
      "\x7b#- x -#\x7d a \x7b\x7b- b -\x7d\x7d\x7b% raw -%\x7d c \x7b%- endraw %\x7d").isOk =
      true := by
    decide +kernel
  obtain ⟨ps, hps⟩ := exists_of_isOk hok
  exact ⟨ps, hps, items_resolved hps⟩

/-- Comments are transparent to markers, tags are not. -/
example : (pieces " a \x7b#- x -#\x7d b \x7b#- y #\x7d\x7b% c -%\x7d\x7b% d %\x7d e ").toOption.map
    items = some [.text [' ', 'a'], .text ['b'], .tag ⟨[' ', 'c', ' '], 23, 25⟩,
      .tag ⟨[' ', 'd', ' '], 31, 33⟩, .text [' ', 'e', ' ']] := by
  decide +kernel

end TemplateEngine.Markup
