import TemplateEngine.Proofs.Markup.Embedding
import TemplateEngine.Proofs.Markup.Layout
import TemplateEngine.Proofs.Markup.Trimming

/-!
# The tags and outputs of a template

The items of a template other than its texts are its tags and outputs (`Layout.constructs`): each is
what stands between the delimiters of a construct of the source, without trim markers, at the
offsets where it stands there.  They come in the order of the source.
-/

namespace TemplateEngine.Markup

/-- The kind and the source of a tag or an output. -/
def Item.construct? : Item → Option (Delimiter × Source)
  | .text _ => none
  | .tag source => some (.tag, source)
  | .output source => some (.output, source)

theorem construct?_item {d : Delimiter} (hd : d ≠ .comment) (source : Source) :
    (d.item source).construct? = some (d, source) := by
  cases d with
  | comment => exact absurd rfl hd
  | tag | output => rfl

/-- The source of a construct that begins at `offset`, with this between its delimiters. -/
def Source.ofRaw (raw : List Char) (offset : Nat) : Source :=
  ⟨(Inner.ofChars raw).source, offset, offset + 2 + (Inner.ofChars raw).lead⟩

/-- The source is that of a construct in a text that begins at `offset`. -/
structure Source.StandsIn (offset : Nat) (cs : List Char) (d : Delimiter) (source : Source)
    (before raw after : List Char) : Prop where
  kind : d ≠ .comment
  split : cs = before ++ d.wrap raw ++ after
  passes : PassesOver d.closer none 0 raw
  source_eq : source = .ofRaw raw (offset + Text.byteLength before)

theorem Source.StandsIn.append {offset : Nat} {front cs before raw after : List Char}
    {d : Delimiter} {source : Source}
    (h : source.StandsIn (offset + Text.byteLength front) cs d before raw after) :
    source.StandsIn offset (front ++ cs) d (front ++ before) raw after := by
  obtain ⟨hd, rfl, hp, hs⟩ := h
  refine ⟨hd, by simp only [List.append_assoc], hp, ?_⟩
  rw [hs, Text.byteLength_append, Nat.add_assoc]

/-- The source without trim markers is a part of the text. -/
theorem Source.StandsIn.slice {offset : Nat} {cs before raw after : List Char} {d : Delimiter}
    {source : Source} (h : source.StandsIn offset cs d before raw after) :
    ∃ lead trail, cs = lead ++ source.text ++ trail ∧
      source.base = offset + Text.byteLength lead := by
  obtain ⟨-, rfl, -, rfl⟩ := h
  have hsource := (Inner.ofChars raw).source_slice (offset + Text.byteLength before + 2)
  rw [Inner.chars_ofChars] at hsource
  exact (hsource.wrap d).within after

/-! ### The words of a tag -/

/-- A tag is its name and its head with white space around them. -/
theorem Words.exists_split {cs : List Char} {offset : Nat} {w : Words}
    (h : Words.ofChars cs offset = w) :
    ∃ lead gap trail, Text.AllBlank lead ∧ Text.AllBlank gap ∧ Text.AllBlank trail ∧
      cs = lead ++ w.first ++ gap ++ w.rest ++ trail ∧
      w.restOffset = offset + Text.byteLength (lead ++ w.first ++ gap) := by
  subst h
  let lead := cs.takeWhile Text.isBlank
  let body := cs.drop lead.length
  let first := body.takeWhile fun c => !Text.isBlank c
  let tail := body.drop first.length
  let gap := tail.takeWhile Text.isBlank
  have hbody : lead ++ body = cs := List.prefix_iff_eq_append.mp (List.takeWhile_prefix _)
  have htail : first ++ tail = body := List.prefix_iff_eq_append.mp (List.takeWhile_prefix _)
  obtain ⟨trail, ht, he⟩ := Text.exists_trim tail
  refine ⟨lead, gap, trail, Text.allBlank_takeWhile _, Text.allBlank_takeWhile _, ht, ?_, ?_⟩
  · calc
      cs = lead ++ (first ++ (gap ++ (Text.trim tail ++ trail))) := by rw [← he, htail, hbody]
      _ = lead ++ first ++ gap ++ Text.trim tail ++ trail := by simp only [List.append_assoc]
  · simp only [Text.byteLength_append, ← Nat.add_assoc]
    rfl

/-! ### The items of pieces -/

namespace Trimming

/-- The tags and outputs found so far, the last one first. -/
def constructs (t : Trimming) : List (Delimiter × Source) := t.items.filterMap Item.construct?

theorem constructs_stripLast (items : List Item) :
    (stripLast items).filterMap Item.construct? = items.filterMap Item.construct? := by
  cases items with
  | nil => rfl
  | cons item items => cases item <;> rfl

/-- Pieces without delimiters and sources add no tags and outputs. -/
theorem constructs_foldl {ps : List Piece} (h : Quiet ps) (t : Trimming) :
    (ps.foldl step t).constructs = t.constructs := by
  induction ps generalizing t with
  | nil => rfl
  | cons p ps ih =>
    rw [List.foldl_cons, ih fun q hq => h q (by simp [hq])]
    have hp := h p (by simp)
    cases hk : p.kind with
    | tagOpen | outputOpen | source => simp [hk] at hp
    | text =>
      simp only [constructs, step, hk]
      exact List.filterMap_cons_none rfl
    | trimLeft => simp only [constructs, step, hk, constructs_stripLast]
    | trimRight | tagClose | outputClose | comment => simp only [constructs, step, hk]

/-- Markers do not change which delimiter is the last one. -/
theorem foldl_leftMarker (i : Inner) (offset : Nat) (t : Trimming) :
    ((i.leftMarker offset).foldl step t).inOutput = t.inOutput ∧
      ((i.leftMarker offset).foldl step t).opened = t.opened := by
  rw [Inner.leftMarker]
  split <;> exact ⟨rfl, rfl⟩

/-- The pieces of a tag or an output add that one. -/
theorem constructs_delimited {d : Delimiter} (hd : d ≠ .comment) (raw : List Char) (offset : Nat)
    (t : Trimming) : ((delimited d offset raw).pieces.foldl step t).constructs =
      (d, .ofRaw raw offset) :: t.constructs := by
  let i := Inner.ofChars raw
  let opened := step t (Inner.openingPiece d offset)
  have hopened : opened.inOutput = (d == .output) ∧ opened.opened = offset ∧
      opened.constructs = t.constructs := by
    cases d with
    | comment => exact absurd rfl hd
    | tag | output => exact ⟨rfl, rfl, rfl⟩
  obtain ⟨hin, hat, hbefore⟩ := hopened
  let marked := (i.leftMarker (offset + 2)).foldl step opened
  obtain ⟨hin', hat'⟩ := foldl_leftMarker i (offset + 2) opened
  have hmarked : marked.constructs = t.constructs :=
    (constructs_foldl (quiet_leftMarker _ _) _).trans hbefore
  have hsource : (step marked (i.sourcePiece offset)).constructs =
      (d, .ofRaw raw offset) :: t.constructs := by
    have hitem : (if marked.inOutput then Item.output (.ofRaw raw offset)
        else .tag (.ofRaw raw offset)) = d.item (.ofRaw raw offset) := by
      rw [hin', hin]
      cases d with
      | comment => exact absurd rfl hd
      | tag | output => rfl
    have hmk : (⟨i.source, marked.opened, offset + 2 + i.lead⟩ : Source) = .ofRaw raw offset := by
      rw [hat', hat]
      rfl
    rw [← hmarked]
    simp only [constructs, step, Inner.sourcePiece, hmk, hitem]
    exact List.filterMap_cons_some (construct?_item hd _)
  have hquiet : Quiet (i.rightMarker (offset + 2) ++ [i.closingPiece d offset]) := by
    refine (quiet_rightMarker _ _).append (quiet_cons ?_ quiet_nil)
    cases d <;> simp [Inner.closingPiece, Delimiter.closeKind]
  rw [pieces_delimited, Inner.row, List.foldl_cons, List.foldl_append, List.foldl_cons,
    constructs_foldl hquiet, ← hsource]

end Trimming

/-! ### The items of a template -/

theorem quiet_commentPieces {body : List Char} (hb : Unclosed Delimiter.comment.closer body)
    (offset : Nat) : Quiet (commentPieces offset body) :=
  quiet_readComment (readComment_wrap hb offset [])

theorem quiet_blockPieces {v : Verbatim} {body closing : List Char}
    (hi : IsClosing ("end" ++ v.name).toList closing)
    (hb : NoClosing ("end" ++ v.name).toList body) (offset : Nat) (raw : List Char) :
    Quiet (blockPieces v offset raw body closing) :=
  quiet_readVerbatim (readVerbatim_blockText hi hb raw offset [])

/-- The pieces of a template add its tags and outputs in order. -/
theorem Layout.exists_constructs {offset : Nat} {cs : List Char} {ps : List Piece}
    (h : Layout offset cs ps) : ∃ xs : List (Delimiter × Source),
      (∀ t, (ps.foldl Trimming.step t).constructs = xs.reverse ++ t.constructs) ∧
      (∀ x ∈ xs, ∃ before raw after, x.2.StandsIn offset cs x.1 before raw after) ∧
      xs.Pairwise fun x y => x.2.offset < y.2.offset := by
  induction h with
  | nil offset => exact ⟨[], fun t => rfl, nofun, .nil⟩
  | @text offset cs rest ps hne h ih =>
    obtain ⟨xs, hxs, hstands, hpairwise⟩ := ih
    refine ⟨xs, fun t => ?_, fun x hx => ?_, hpairwise⟩
    · rw [List.foldl_cons, hxs]
      rfl
    · obtain ⟨before, raw, after, hx⟩ := hstands x hx
      exact ⟨_, _, _, hx.append⟩
  | @construct offset own rest qs ps hk h ih =>
    obtain ⟨xs, hxs, hstands, hpairwise⟩ := ih
    have hrest : ∀ x ∈ xs, ∃ before raw after,
        x.2.StandsIn offset (own ++ rest) x.1 before raw after := by
      intro x hx
      obtain ⟨before, raw, after, hx⟩ := hstands x hx
      exact ⟨_, _, _, hx.append⟩
    have hquiet : Quiet qs → ∀ t, ((qs ++ ps).foldl Trimming.step t).constructs =
        xs.reverse ++ t.constructs := by
      intro hq t
      rw [List.foldl_append, hxs, Trimming.constructs_foldl hq]
    cases hk with
    | comment hb => exact ⟨xs, hquiet (quiet_commentPieces hb _), hrest, hpairwise⟩
    | block hp hv hi hb => exact ⟨xs, hquiet (quiet_blockPieces hi hb _ _), hrest, hpairwise⟩
    | @source d raw hd hp hv =>
      have hfirst : (Source.ofRaw raw offset).StandsIn offset (d.wrap raw ++ rest) d [] raw rest :=
        ⟨hd, rfl, hp, rfl⟩
      refine ⟨(d, .ofRaw raw offset) :: xs, fun t => ?_, ?_, ?_⟩
      · rw [List.foldl_append, hxs, Trimming.constructs_delimited hd, List.reverse_cons,
          List.append_assoc]
        rfl
      · exact List.forall_mem_cons.mpr ⟨⟨[], raw, rest, hfirst⟩, hrest⟩
      · refine List.pairwise_cons.mpr ⟨fun x hx => ?_, hpairwise⟩
        obtain ⟨before, raw', after, hx⟩ := hstands x hx
        rw [hx.source_eq]
        simp only [Source.ofRaw, byteLength_wrap]
        omega

/-- The tags and outputs of a template are those of its source, in order. -/
theorem Layout.constructs {offset : Nat} {cs : List Char} {ps : List Piece}
    (h : Layout offset cs ps) :
    (∀ x ∈ (items ps).filterMap Item.construct?,
      ∃ before raw after, x.2.StandsIn offset cs x.1 before raw after) ∧
    ((items ps).filterMap Item.construct?).Pairwise fun x y => x.2.offset < y.2.offset := by
  obtain ⟨xs, hxs, hstands, hpairwise⟩ := h.exists_constructs
  have hitems : (items ps).filterMap Item.construct? = xs := by
    have hfold := hxs ⟨[], false, false, 0⟩
    rw [Trimming.constructs, Trimming.constructs, List.filterMap_nil, List.append_nil] at hfold
    rw [items, List.filterMap_reverse, hfold, List.reverse_reverse]
  rw [hitems]
  exact ⟨hstands, hpairwise⟩

/-- A tag or an output of a template is what stands between delimiters of its source. -/
theorem exists_standsIn {source : String} {ps : List Piece} (h : pieces source = .ok ps)
    {item : Item} (hi : item ∈ items ps) {d : Delimiter} {s : Source}
    (hs : item.construct? = some (d, s)) :
    ∃ before raw after, s.StandsIn 0 source.toList d before raw after :=
  (layout_of_piecesFrom h).constructs.1 (d, s) (List.mem_filterMap.mpr ⟨item, hi, hs⟩)

end TemplateEngine.Markup
