import TemplateEngine.Proofs.Markup.Cuts

/-!
# The layout of a template

A template that can be cut into pieces is laid out as texts and constructs, one behind the other
(`Layout`), and a construct is a comment, a verbatim block, or a tag or an output (`IsConstruct`).

Nothing is lost (`pieces_lossless`).  Every piece is a part of the source at its byte offset.  The
spans of the pieces other than trim markers follow one another and do not overlap.  A byte in none
of them is a trim marker with a piece of its own, or belongs to a tag of a `raw` block.
-/

namespace TemplateEngine.Markup

/-! ### Texts and constructs -/

/-- The text is a construct that begins at this offset and has these pieces. -/
inductive IsConstruct (offset : Nat) : List Char → List Piece → Prop where
  | comment {body : List Char} (hb : Unclosed Delimiter.comment.closer body) :
      IsConstruct offset (Delimiter.comment.wrap body) (commentPieces offset body)
  | block {v : Verbatim} {raw body closing : List Char}
      (hp : PassesOver Delimiter.tag.closer none 0 raw)
      (hv : Verbatim.ofSource? (Inner.ofChars raw).source = some v)
      (hi : IsClosing ("end" ++ v.name).toList closing)
      (hb : NoClosing ("end" ++ v.name).toList body) :
      IsConstruct offset (blockText raw body closing) (blockPieces v offset raw body closing)
  | source {d : Delimiter} {raw : List Char} (hd : d ≠ .comment)
      (hp : PassesOver d.closer none 0 raw)
      (hv : d = .tag → Verbatim.ofSource? (Inner.ofChars raw).source = none) :
      IsConstruct offset (d.wrap raw) (delimited d offset raw).pieces

/-- What is read as a construct is one. -/
theorem exists_isConstruct {d : Delimiter} {offset : Nat} {cs : List Char} {k : Construct}
    (hd : Delimiter.opening? cs = some d) (h : readConstruct d offset cs = .ok k) :
    ∃ own rest, cs = own ++ rest ∧ own.length = k.length ∧ IsConstruct offset own k.pieces := by
  obtain ⟨cs, rfl⟩ := Delimiter.opening?_eq_some_iff.mp hd
  cases d with
  | comment =>
    obtain ⟨body, rest, he, hb⟩ := exists_wrap_of_readComment h
    rw [he, readConstruct, readComment_wrap hb] at h
    cases h
    exact ⟨_, rest, he, Delimiter.length_wrap _ _, .comment hb⟩
  | output =>
    obtain ⟨raw, hraw, rfl⟩ := map_eq_ok_iff.mp h
    obtain ⟨rest, he, hp⟩ := exists_wrap_of_readInner hraw
    exact ⟨_, rest, he, Delimiter.length_wrap _ _, .source (by decide) hp (by simp)⟩
  | tag =>
    obtain ⟨raw, hraw, -⟩ := bind_eq_ok_iff.mp h
    obtain ⟨rest, he, hp⟩ := exists_wrap_of_readInner hraw
    rw [he, readConstruct_tag hp] at h
    split at h
    · next v hv =>
      obtain ⟨body, closing, rest', hcs, hi, hb⟩ := exists_blockText h
      rw [hcs, readVerbatim_blockText hi hb] at h
      cases h
      exact ⟨_, rest', he.trans hcs, rfl, .block hp hv hi hb⟩
    · next hv =>
      cases h
      exact ⟨_, rest, he, Delimiter.length_wrap _ _, .source (by decide) hp fun _ => hv⟩

/-- A text that begins at this offset is laid out as texts and constructs with these pieces. -/
inductive Layout : Nat → List Char → List Piece → Prop where
  | nil (offset : Nat) : Layout offset [] []
  | text {offset : Nat} {cs rest : List Char} {ps : List Piece} (hne : cs ≠ [])
      (h : Layout (offset + Text.byteLength cs) rest ps) :
      Layout offset (cs ++ rest) (⟨.text, cs, offset⟩ :: ps)
  | construct {offset : Nat} {own rest : List Char} {qs ps : List Piece}
      (hk : IsConstruct offset own qs) (h : Layout (offset + Text.byteLength own) rest ps) :
      Layout offset (own ++ rest) (qs ++ ps)

/-- A text is laid out as it is cut. -/
theorem layout_of_piecesFrom {offset : Nat} {cs : List Char} {ps : List Piece}
    (h : piecesFrom offset cs = .ok ps) : Layout offset cs ps := by
  induction hl : cs.length using Nat.strong_induction_on generalizing offset cs ps with
  | h l ih =>
    subst hl
    cases hd : Delimiter.opening? cs with
    | some d =>
      obtain ⟨k, hk⟩ := exists_construct hd h
      obtain ⟨own, rest, rfl, hown⟩ := exists_isOwn hd hk
      obtain ⟨own', rest', he, hlength, hconstruct⟩ := exists_isConstruct hd hk
      obtain ⟨rfl, rfl⟩ := List.append_inj he (hown.length.trans hlength.symm)
      rw [hown.piecesFrom, map_eq_ok_iff] at h
      obtain ⟨more, hmore, rfl⟩ := h
      refine .construct hconstruct (ih _ ?_ hmore rfl)
      have htwo := hown.two_le_length
      rw [List.length_append]
      omega
    | none =>
      cases cs with
      | nil =>
        rw [piecesFrom] at h
        cases h
        exact .nil offset
      | cons c cs =>
        rw [piecesFrom, hd] at h
        obtain ⟨more, hmore, he⟩ := bind_eq_ok_iff.mp h
        cases he
        have hsplit : c :: cs = c :: cs.take (textRun cs) ++ cs.drop (textRun cs) := by
          rw [List.cons_append, List.take_append_drop]
        rw [hsplit]
        refine .text (by simp) (ih _ ?_ hmore rfl)
        simp only [List.length_drop, List.length_cons]
        omega

/-! ### Spans -/

namespace Piece

/-- The offset behind a piece. -/
def stop (p : Piece) : Nat := p.offset + Text.byteLength p.lexeme

/-- The piece is a trim marker. -/
def isMarker (p : Piece) : Bool := p.kind == .trimLeft || p.kind == .trimRight

/-- The piece is a part of a text, which begins at `offset`, and stands where it says. -/
def IsSlice (offset : Nat) (cs : List Char) (p : Piece) : Prop :=
  ∃ before after, cs = before ++ p.lexeme ++ after ∧ p.offset = offset + Text.byteLength before

/-- The first piece ends before the second one begins, and the second one reaches further. -/
def Before (p q : Piece) : Prop := p.stop ≤ q.offset ∧ (p.offset < q.offset ∨ p.stop < q.stop)

variable {p : Piece} {offset : Nat} {cs : List Char}

theorem IsSlice.le_offset (h : p.IsSlice offset cs) : offset ≤ p.offset := by
  obtain ⟨before, after, -, ho⟩ := h
  omega

theorem IsSlice.stop_le (h : p.IsSlice offset cs) : p.stop ≤ offset + Text.byteLength cs := by
  obtain ⟨before, after, rfl, ho⟩ := h
  simp only [stop, ho, Text.byteLength_append]
  omega

/-- A part of a part of a text. -/
theorem IsSlice.within {before : List Char}
    (h : p.IsSlice (offset + Text.byteLength before) cs) (after : List Char) :
    p.IsSlice offset (before ++ cs ++ after) := by
  obtain ⟨b, a, rfl, ho⟩ := h
  refine ⟨before ++ b, a ++ after, ?_, ?_⟩
  · simp only [List.append_assoc]
  · rw [ho, Text.byteLength_append, Nat.add_assoc]

end Piece

/-- The pieces that are no trim markers. -/
def spans (ps : List Piece) : List Piece := ps.filter fun p => !p.isMarker

theorem mem_spans {ps : List Piece} {p : Piece} :
    p ∈ spans ps ↔ p ∈ ps ∧ p.isMarker = false := by
  rw [spans, List.mem_filter, Bool.not_eq_true']

@[simp] theorem spans_nil : spans [] = [] := rfl

@[simp] theorem spans_append (ps qs : List Piece) : spans (ps ++ qs) = spans ps ++ spans qs :=
  List.filter_append ..

theorem spans_cons {p : Piece} (hp : p.isMarker = false) (ps : List Piece) :
    spans (p :: ps) = p :: spans ps :=
  List.filter_cons_of_pos (by simp [hp])

theorem spans_marker {c : Prop} [Decidable c] {p : Piece} (hp : p.isMarker = true) :
    spans (if c then [p] else []) = [] := by
  split <;> simp [spans, hp]

@[simp] theorem spans_leftMarker (i : Inner) (offset : Nat) : spans (i.leftMarker offset) = [] :=
  spans_marker rfl

@[simp] theorem spans_rightMarker (i : Inner) (offset : Nat) : spans (i.rightMarker offset) = [] :=
  spans_marker rfl

/-- The byte is a trim marker of a tag or an output: it has a piece of its own and stands beside a
delimiter. -/
inductive IsMarkerAt (ps : List Piece) (i : Nat) : Prop where
  | left {p : Piece} (hp : p ∈ ps) (hk : p.kind = .tagOpen ∨ p.kind = .outputOpen)
      (hs : p.stop = i) (hm : ⟨.trimLeft, ['-'], i⟩ ∈ ps)
  | right {p : Piece} (hp : p ∈ ps) (hk : p.kind = .tagClose ∨ p.kind = .outputClose)
      (hs : p.offset = i + 1) (hm : ⟨.trimRight, ['-'], i⟩ ∈ ps)

/-- The byte of a text, which begins at `offset`, belongs to the opening or the closing tag of a
`raw` block whose body is one of the pieces. -/
def InRawTag (offset : Nat) (cs : List Char) (ps : List Piece) (i : Nat) : Prop :=
  ∃ before raw body closing after, cs = before ++ blockText raw body closing ++ after ∧
    Verbatim.ofSource? (Inner.ofChars raw).source = some .raw ∧
    IsClosing "endraw".toList closing ∧
    let start := offset + Text.byteLength before
    let bodyStart := start + Text.byteLength (Delimiter.tag.wrap raw)
    let bodyStop := bodyStart + Text.byteLength body
    ⟨.text, body, bodyStart⟩ ∈ ps ∧
      (start ≤ i ∧ i < bodyStart ∨
        bodyStop ≤ i ∧ i < bodyStop + Text.byteLength (closingTag closing))

/-- The byte is in the span of a piece that is no trim marker, is a trim marker itself, or belongs
to a tag of a `raw` block. -/
def Accounted (offset : Nat) (cs : List Char) (ps : List Piece) (i : Nat) : Prop :=
  (∃ p ∈ spans ps, p.offset ≤ i ∧ i < p.stop) ∨ IsMarkerAt ps i ∨ InRawTag offset cs ps i

theorem IsMarkerAt.mono {ps qs : List Piece} {i : Nat} (h : IsMarkerAt ps i) (hs : ps ⊆ qs) :
    IsMarkerAt qs i := by
  cases h with
  | left hp hk hstop hm => exact .left (hs hp) hk hstop (hs hm)
  | right hp hk hstart hm => exact .right (hs hp) hk hstart (hs hm)

theorem InRawTag.within {offset i : Nat} {before cs : List Char} {ps qs : List Piece}
    (h : InRawTag (offset + Text.byteLength before) cs ps i) (hs : ps ⊆ qs) (after : List Char) :
    InRawTag offset (before ++ cs ++ after) qs i := by
  obtain ⟨b, raw, body, closing, a, rfl, hv, hi, hm, hrange⟩ := h
  refine ⟨before ++ b, raw, body, closing, a ++ after, ?_, hv, hi, ?_⟩
  · simp only [List.append_assoc]
  · rw [Text.byteLength_append, ← Nat.add_assoc]
    exact ⟨hs hm, hrange⟩

theorem Accounted.within {offset i : Nat} {before cs : List Char} {ps qs : List Piece}
    (h : Accounted (offset + Text.byteLength before) cs ps i) (hs : ps ⊆ qs) (after : List Char) :
    Accounted offset (before ++ cs ++ after) qs i := by
  rcases h with ⟨p, hp, hi⟩ | h | h
  · obtain ⟨hp, hm⟩ := mem_spans.mp hp
    exact .inl ⟨p, mem_spans.mpr ⟨hs hp, hm⟩, hi⟩
  · exact .inr (.inl (h.mono hs))
  · exact .inr (.inr (h.within hs after))

/-- The pieces account for every byte of a text that begins at `offset`. -/
structure Accounts (offset : Nat) (cs : List Char) (ps : List Piece) : Prop where
  slice : ∀ p ∈ ps, p.IsSlice offset cs
  ordered : (spans ps).Pairwise Piece.Before
  /-- No piece but a trim marker is empty at the start of the text. -/
  reaches : ∀ p ∈ spans ps, offset < p.stop
  covered : ∀ i, offset ≤ i → i < offset + Text.byteLength cs → Accounted offset cs ps i

theorem accounts_nil (offset : Nat) : Accounts offset [] [] := by
  refine ⟨nofun, .nil, nofun, fun i hle hlt => ?_⟩
  rw [Text.byteLength_nil] at hlt
  omega

/-- Two texts one behind the other. -/
theorem Accounts.append {offset : Nat} {cs ds : List Char} {ps qs : List Piece}
    (hp : Accounts offset cs ps) (hq : Accounts (offset + Text.byteLength cs) ds qs) :
    Accounts offset (cs ++ ds) (ps ++ qs) := by
  have hleft : ∀ {p : Piece}, p.IsSlice offset cs → p.IsSlice offset (cs ++ ds) := by
    intro p h
    have h' : p.IsSlice (offset + Text.byteLength []) cs := h
    simpa using h'.within ds
  have hright : ∀ {p : Piece}, p.IsSlice (offset + Text.byteLength cs) ds →
      p.IsSlice offset (cs ++ ds) := by
    intro p h
    simpa using h.within []
  constructor
  · intro p h
    rcases List.mem_append.mp h with h | h
    · exact hleft (hp.slice p h)
    · exact hright (hq.slice p h)
  · rw [spans_append, List.pairwise_append]
    refine ⟨hp.ordered, hq.ordered, fun p hpm q hqm => ?_⟩
    have hstop := (hp.slice p (mem_spans.mp hpm).1).stop_le
    have hstart := (hq.slice q (mem_spans.mp hqm).1).le_offset
    have hreach := hq.reaches q hqm
    exact ⟨by omega, .inr (by omega)⟩
  · intro p h
    rw [spans_append, List.mem_append] at h
    rcases h with h | h
    · exact hp.reaches p h
    · have hreach := hq.reaches p h
      omega
  · intro i hle hlt
    rw [Text.byteLength_append] at hlt
    by_cases hi : i < offset + Text.byteLength cs
    · have hc : Accounted (offset + Text.byteLength []) cs ps i := hp.covered i hle hi
      simpa using hc.within (List.subset_append_left ps qs) ds
    · have hc := hq.covered i (by omega) (by omega)
      simpa using hc.within (List.subset_append_right ps qs) []

/-! ### What constructs account for -/

namespace Inner

/-- The number of bytes behind the source. -/
def trail (i : Inner) : Nat := if i.trimRight then 1 else 0

theorem byteLength_chars (i : Inner) :
    Text.byteLength i.chars = i.lead + Text.byteLength i.source + i.trail := by
  obtain ⟨left, source, right⟩ := i
  cases left <;> cases right <;> simp [chars, lead, trail, Char.utf8Size, Nat.add_assoc]

theorem leftMarker_slice (i : Inner) (offset : Nat) :
    ∀ p ∈ i.leftMarker offset, p.IsSlice offset i.chars := by
  obtain ⟨left, source, right⟩ := i
  cases left with
  | false => exact nofun
  | true => exact List.forall_mem_singleton.mpr ⟨[], _, rfl, rfl⟩

theorem source_slice (i : Inner) (offset : Nat) :
    Piece.IsSlice offset i.chars ⟨.source, i.source, offset + i.lead⟩ := by
  obtain ⟨left, source, right⟩ := i
  refine ⟨if left then ['-'] else [], if right then ['-'] else [], rfl, ?_⟩
  cases left <;> rfl

theorem rightMarker_slice (i : Inner) (offset : Nat) :
    ∀ p ∈ i.rightMarker offset, p.IsSlice offset i.chars := by
  obtain ⟨left, source, right⟩ := i
  cases right with
  | false => exact nofun
  | true =>
    refine List.forall_mem_singleton.mpr ⟨(if left then ['-'] else []) ++ source, [], ?_, ?_⟩
    · simp [chars]
    · cases left <;> simp [lead, Char.utf8Size, Nat.add_assoc]

end Inner

theorem byteLength_opener (d : Delimiter) : Text.byteLength d.opener = 2 := by cases d <;> rfl

theorem byteLength_closer (d : Delimiter) : Text.byteLength d.closer = 2 := by cases d <;> rfl

theorem byteLength_wrap (d : Delimiter) (raw : List Char) :
    Text.byteLength (d.wrap raw) = Text.byteLength raw + 4 := by
  rw [Delimiter.wrap, Text.byteLength_append, Text.byteLength_append, byteLength_opener,
    byteLength_closer]
  omega

/-- A part of the inside of a construct is a part of the construct. -/
theorem Piece.IsSlice.wrap {p : Piece} {offset : Nat} {raw : List Char}
    (h : p.IsSlice (offset + 2) raw) (d : Delimiter) : p.IsSlice offset (d.wrap raw) := by
  rw [← byteLength_opener d] at h
  exact h.within d.closer

namespace Inner

/-! The pieces of a tag or an output with the same inside. -/

section

variable (d : Delimiter) (offset : Nat) (i : Inner)

/-- The opening delimiter. -/
def openingPiece : Piece := ⟨d.openKind, d.opener, offset⟩

/-- What stands between the delimiters and the trim markers. -/
def sourcePiece : Piece := ⟨.source, i.source, offset + 2 + i.lead⟩

/-- The closing delimiter. -/
def closingPiece : Piece := ⟨d.closeKind, d.closer, offset + 2 + Text.byteLength i.chars⟩

/-- The pieces in order. -/
def row : List Piece :=
  openingPiece d offset :: (i.leftMarker (offset + 2) ++
    i.sourcePiece offset :: (i.rightMarker (offset + 2) ++ [i.closingPiece d offset]))

theorem stop_openingPiece : (openingPiece d offset).stop = offset + 2 := by
  simp [openingPiece, Piece.stop, byteLength_opener]

theorem stop_sourcePiece :
    (i.sourcePiece offset).stop = offset + 2 + i.lead + Text.byteLength i.source := rfl

theorem offset_closingPiece : (i.closingPiece d offset).offset =
    offset + 2 + (i.lead + Text.byteLength i.source + i.trail) := by
  rw [closingPiece, byteLength_chars]

theorem stop_closingPiece : (i.closingPiece d offset).stop =
    offset + 2 + (i.lead + Text.byteLength i.source + i.trail) + 2 := by
  rw [Piece.stop, offset_closingPiece, closingPiece, byteLength_closer]

theorem slice_row : ∀ p ∈ i.row d offset, p.IsSlice offset (d.wrap i.chars) := by
  have hopening : (openingPiece d offset).IsSlice offset (d.wrap i.chars) :=
    ⟨[], i.chars ++ d.closer, List.append_assoc .., rfl⟩
  have hclosing : (i.closingPiece d offset).IsSlice offset (d.wrap i.chars) := by
    refine ⟨d.opener ++ i.chars, [], by simp [Delimiter.wrap, closingPiece], ?_⟩
    rw [closingPiece, Text.byteLength_append, byteLength_opener, Nat.add_assoc]
  simp only [row, List.forall_mem_cons, List.forall_mem_append]
  exact ⟨hopening, fun p hp => (i.leftMarker_slice _ p hp).wrap d, (i.source_slice _).wrap d,
    fun p hp => (i.rightMarker_slice _ p hp).wrap d, hclosing, List.forall_mem_nil _⟩

theorem spans_row : spans (i.row d offset) =
    [openingPiece d offset, i.sourcePiece offset, i.closingPiece d offset] := by
  have hopening : (openingPiece d offset).isMarker = false := by cases d <;> rfl
  have hclosing : (i.closingPiece d offset).isMarker = false := by cases d <;> rfl
  have hsource : (i.sourcePiece offset).isMarker = false := rfl
  simp [row, spans_cons, hopening, hsource, hclosing]

theorem ordered_row : (spans (i.row d offset)).Pairwise Piece.Before := by
  rw [spans_row]
  have hopening : (openingPiece d offset).offset = offset := rfl
  have hsource : (i.sourcePiece offset).offset = offset + 2 + i.lead := rfl
  simp only [List.pairwise_cons, List.forall_mem_cons, Piece.Before, stop_openingPiece,
    stop_sourcePiece, stop_closingPiece, offset_closingPiece, hopening, hsource]
  refine ⟨⟨⟨?_, ?_⟩, ⟨?_, ?_⟩, nofun⟩, ⟨⟨?_, ?_⟩, nofun⟩, nofun, .nil⟩ <;> omega

theorem reaches_row : ∀ p ∈ spans (i.row d offset), offset < p.stop := by
  intro p hp
  rw [spans_row] at hp
  simp only [List.mem_cons, List.not_mem_nil, or_false] at hp
  rcases hp with rfl | rfl | rfl
  · rw [stop_openingPiece]; omega
  · rw [stop_sourcePiece]; omega
  · rw [stop_closingPiece]; omega

variable {d} in
theorem covered_row (hd : d ≠ .comment) {b : Nat} (hle : offset ≤ b)
    (hlt : b < offset + Text.byteLength (d.wrap i.chars)) :
    Accounted offset (d.wrap i.chars) (i.row d offset) b := by
  have hopening : (openingPiece d offset).kind = .tagOpen ∨
      (openingPiece d offset).kind = .outputOpen := by
    cases d <;> simp_all [openingPiece, Delimiter.openKind]
  have hclosing : (i.closingPiece d offset).kind = .tagClose ∨
      (i.closingPiece d offset).kind = .outputClose := by
    cases d <;> simp_all [closingPiece, Delimiter.closeKind]
  have hspan : ∀ p ∈ [openingPiece d offset, i.sourcePiece offset, i.closingPiece d offset],
      p.offset ≤ b → b < p.stop → Accounted offset (d.wrap i.chars) (i.row d offset) b := by
    intro p hp hle hlt
    rw [← spans_row] at hp
    exact .inl ⟨p, hp, hle, hlt⟩
  rw [byteLength_wrap, byteLength_chars] at hlt
  -- the five parts of the text, from its end on
  by_cases hclose : offset + 2 + (i.lead + Text.byteLength i.source + i.trail) ≤ b
  · refine hspan (i.closingPiece d offset) (by simp) ?_ ?_
    · rwa [offset_closingPiece]
    · rw [stop_closingPiece]
      omega
  by_cases hright : offset + 2 + i.lead + Text.byteLength i.source ≤ b
  · have htrail : i.trimRight = true := by
      by_contra h
      simp only [trail, h, if_false] at hclose
      omega
    refine .inr (.inl (.right (p := i.closingPiece d offset) (by simp [row]) hclosing ?_ ?_))
    · rw [offset_closingPiece]
      simp only [trail, htrail, if_true] at hclose ⊢
      omega
    · have hb : b = offset + 2 + i.lead + Text.byteLength i.source := by
        simp only [trail, htrail, if_true] at hclose
        omega
      simp [row, rightMarker, htrail, hb]
  by_cases hsource : offset + 2 + i.lead ≤ b
  · exact hspan (i.sourcePiece offset) (by simp) hsource (by rw [stop_sourcePiece]; omega)
  by_cases hleft : offset + 2 ≤ b
  · have hlead : i.trimLeft = true := by
      by_contra h
      simp only [lead, h, if_false] at hsource
      omega
    have hb : b = offset + 2 := by
      simp only [lead, hlead, if_true] at hsource
      omega
    refine .inr (.inl (.left (p := openingPiece d offset) (by simp [row]) hopening ?_ ?_))
    · rw [stop_openingPiece, hb]
    · simp [row, leftMarker, hlead, hb]
  · exact hspan (openingPiece d offset) (by simp) hle (by rw [stop_openingPiece]; omega)

end

end Inner

theorem pieces_delimited (d : Delimiter) (offset : Nat) (raw : List Char) :
    (delimited d offset raw).pieces = (Inner.ofChars raw).row d offset := by
  simp [delimited, Inner.row, Inner.openingPiece, Inner.sourcePiece, Inner.closingPiece,
    Inner.chars_ofChars]

theorem accounts_delimited {d : Delimiter} (hd : d ≠ .comment) (offset : Nat) (raw : List Char) :
    Accounts offset (d.wrap raw) (delimited d offset raw).pieces := by
  have h : Accounts offset (d.wrap (Inner.ofChars raw).chars) ((Inner.ofChars raw).row d offset) :=
    ⟨Inner.slice_row d offset _, Inner.ordered_row d offset _, Inner.reaches_row d offset _,
      fun _ hle hlt => Inner.covered_row offset _ hd hle hlt⟩
  rwa [Inner.chars_ofChars, ← pieces_delimited] at h

/-- One piece accounts for the whole text when all others are trim markers. -/
theorem accounts_of_whole {offset : Nat} {cs : List Char} {ps : List Piece} {p : Piece}
    (hslice : ∀ q ∈ ps, q.IsSlice offset cs) (hspans : spans ps = [p]) (ho : p.offset = offset)
    (hl : p.lexeme = cs) (hne : cs ≠ []) : Accounts offset cs ps := by
  have hstop : p.stop = offset + Text.byteLength cs := by rw [Piece.stop, ho, hl]
  refine ⟨hslice, ?_, ?_, fun i hle hlt => .inl ⟨p, by simp [hspans], by omega, by omega⟩⟩
  · rw [hspans]
    exact List.pairwise_singleton ..
  · rw [hspans, List.forall_mem_singleton, hstop]
    have hpos := Text.byteLength_pos hne
    omega

theorem accounts_text (offset : Nat) {cs : List Char} (hne : cs ≠ []) :
    Accounts offset cs [⟨.text, cs, offset⟩] := by
  refine accounts_of_whole ?_ rfl rfl rfl hne
  exact List.forall_mem_singleton.mpr ⟨[], [], by simp, rfl⟩

theorem Delimiter.wrap_ne_nil (d : Delimiter) (raw : List Char) : d.wrap raw ≠ [] := by
  cases d <;> nofun

/-- The trim markers of a comment have no spans. -/
theorem spans_commentPieces (offset : Nat) (body : List Char) :
    spans (commentPieces offset body) = [⟨.comment, Delimiter.comment.wrap body, offset⟩] := by
  rw [commentPieces, spans_append, spans_marker rfl, spans_cons rfl, spans_marker rfl,
    List.nil_append]

/-- A comment with the trim markers at its ends. -/
theorem accounts_comment (offset : Nat) (body : List Char) :
    Accounts offset (Delimiter.comment.wrap body) (commentPieces offset body) := by
  refine accounts_of_whole ?_ (spans_commentPieces offset body) rfl rfl (Delimiter.wrap_ne_nil _ _)
  · simp only [commentPieces, List.forall_mem_append, List.forall_mem_cons]
    refine ⟨?_, ⟨[], [], by simp, rfl⟩, ?_⟩
    · split
      · next h =>
        obtain ⟨rest, rfl⟩ := List.head?_eq_some_iff.mp (beq_iff_eq.mp h)
        have hslice : Piece.IsSlice (offset + 2) ('-' :: rest) ⟨.trimLeft, ['-'], offset + 2⟩ :=
          ⟨[], rest, rfl, rfl⟩
        exact List.forall_mem_singleton.mpr (hslice.wrap _)
      · exact List.forall_mem_nil _
    · split
      · next h =>
        obtain ⟨front, rfl⟩ := List.getLast?_eq_some_iff.mp h.2
        refine List.forall_mem_singleton.mpr (Piece.IsSlice.wrap ⟨front, [], by simp, ?_⟩ _)
        have hminus : Char.utf8Size '-' = 1 := rfl
        simp only [Text.byteLength_append, Text.byteLength_cons, Text.byteLength_nil, hminus]
        omega
      · exact List.forall_mem_nil _

theorem byteLength_blockText (raw body closing : List Char) :
    Text.byteLength (blockText raw body closing) =
      Text.byteLength raw + 4 + Text.byteLength body + (Text.byteLength closing + 4) := by
  rw [blockText, Text.byteLength_append, Text.byteLength_append, byteLength_wrap]
  exact congrArg _ (byteLength_wrap .tag closing)

/-- The trim markers of the opening tag of a block. -/
theorem slice_blockText_raw {p : Piece} {offset : Nat} {raw : List Char}
    (h : p.IsSlice (offset + 2) raw) (body closing : List Char) :
    p.IsSlice offset (blockText raw body closing) := by
  have hwrap : p.IsSlice (offset + Text.byteLength []) (Delimiter.tag.wrap raw) := h.wrap .tag
  simpa [blockText] using hwrap.within (body ++ closingTag closing)

/-- The trim markers of the closing tag of a block. -/
theorem slice_blockText_closing {p : Piece} {offset : Nat} {raw body closing : List Char}
    (h : p.IsSlice (offset + 4 + Text.byteLength raw + Text.byteLength body + 2) closing) :
    p.IsSlice offset (blockText raw body closing) := by
  have hstart : offset + 4 + Text.byteLength raw + Text.byteLength body =
      offset + Text.byteLength (Delimiter.tag.wrap raw ++ body) := by
    rw [Text.byteLength_append, byteLength_wrap]
    omega
  rw [hstart] at h
  simpa [blockText, closingTag, Delimiter.wrap] using (h.wrap .tag).within []

theorem slice_leftMarker (raw : List Char) (offset : Nat) :
    ∀ p ∈ (Inner.ofChars raw).leftMarker offset, p.IsSlice offset raw := by
  have h := (Inner.ofChars raw).leftMarker_slice offset
  rwa [Inner.chars_ofChars] at h

theorem slice_rightMarker (raw : List Char) (offset : Nat) :
    ∀ p ∈ (Inner.ofChars raw).rightMarker offset, p.IsSlice offset raw := by
  have h := (Inner.ofChars raw).rightMarker_slice offset
  rwa [Inner.chars_ofChars] at h

/-- What a block has beside trim markers: a `raw` block its body, a `comment` block itself. -/
theorem spans_blockPieces (v : Verbatim) (offset : Nat) (raw body closing : List Char) :
    spans (blockPieces v offset raw body closing) =
      match v with
      | .raw => [⟨.text, body, offset + 4 + Text.byteLength raw⟩]
      | .comment => [⟨.comment, blockText raw body closing, offset⟩] := by
  cases v with
  | raw =>
    simp only [blockPieces, spans_append, spans_leftMarker, spans_rightMarker, List.nil_append]
    rw [spans_cons rfl, spans_leftMarker, List.append_nil]
  | comment =>
    simp only [blockPieces, spans_append, spans_leftMarker, spans_rightMarker, List.nil_append]
    rw [spans_cons rfl, spans_nil, List.append_nil]

/-- A `comment` block is one piece beside the trim markers of its outer ends. -/
theorem accounts_commentBlock (offset : Nat) (raw body closing : List Char) :
    Accounts offset (blockText raw body closing)
      (blockPieces .comment offset raw body closing) := by
  refine accounts_of_whole ?_ (spans_blockPieces .comment offset raw body closing) rfl rfl
    (by simp [blockText, Delimiter.wrap, Delimiter.opener])
  · simp only [blockPieces, List.forall_mem_append, List.forall_mem_singleton]
    have hblock : Piece.IsSlice offset (blockText raw body closing)
        ⟨.comment, blockText raw body closing, offset⟩ := ⟨[], [], by simp, rfl⟩
    exact ⟨⟨fun p hp => slice_blockText_raw (slice_leftMarker raw _ p hp) _ _, hblock⟩,
      fun p hp => slice_blockText_closing (slice_rightMarker closing _ p hp)⟩

/-- A `raw` block has its body and trim markers as pieces; the rest belongs to its two tags. -/
theorem accounts_rawBlock {raw body closing : List Char}
    (hv : Verbatim.ofSource? (Inner.ofChars raw).source = some .raw)
    (hi : IsClosing "endraw".toList closing) (offset : Nat) :
    Accounts offset (blockText raw body closing) (blockPieces .raw offset raw body closing) := by
  let text : Piece := ⟨.text, body, offset + 4 + Text.byteLength raw⟩
  have hstop : text.stop = offset + 4 + Text.byteLength raw + Text.byteLength body := rfl
  have hspans : spans (blockPieces .raw offset raw body closing) = [text] :=
    spans_blockPieces .raw offset raw body closing
  have hwrap : Text.byteLength (Delimiter.tag.wrap raw) = Text.byteLength raw + 4 :=
    byteLength_wrap .tag raw
  refine ⟨?_, ?_, ?_, fun i hle hlt => ?_⟩
  · simp only [blockPieces, List.forall_mem_append, List.forall_mem_cons]
    refine ⟨⟨fun p hp => slice_blockText_raw (slice_leftMarker raw _ p hp) _ _,
      fun p hp => slice_blockText_raw (slice_rightMarker raw _ p hp) _ _,
      ⟨Delimiter.tag.wrap raw, closingTag closing, rfl, ?_⟩,
      fun p hp => slice_blockText_closing (slice_leftMarker closing _ p hp)⟩,
      fun p hp => slice_blockText_closing (slice_rightMarker closing _ p hp)⟩
    dsimp only
    omega
  · rw [hspans]
    exact List.pairwise_singleton ..
  · rw [hspans, List.forall_mem_singleton, hstop]
    omega
  · rw [byteLength_blockText] at hlt
    by_cases hbody : offset + 4 + Text.byteLength raw ≤ i ∧ i < text.stop
    · exact .inl ⟨text, by simp [hspans], hbody⟩
    · have hmem : text ∈ spans (blockPieces .raw offset raw body closing) := by simp [hspans]
      have hclosing : Text.byteLength (closingTag closing) = Text.byteLength closing + 4 :=
        byteLength_wrap .tag closing
      have hstart : offset + (Text.byteLength raw + 4) = offset + 4 + Text.byteLength raw := by
        omega
      refine .inr (.inr ⟨[], raw, body, closing, [], by simp, hv, hi, ?_⟩)
      simp only [Text.byteLength_nil, Nat.add_zero, hwrap, hclosing, hstart]
      exact ⟨(mem_spans.mp hmem).1, by omega⟩

theorem IsConstruct.accounts {offset : Nat} {own : List Char} {ps : List Piece}
    (h : IsConstruct offset own ps) : Accounts offset own ps := by
  cases h with
  | comment hb => exact accounts_comment offset _
  | source hd hp hv => exact accounts_delimited hd offset _
  | @block v raw body closing hp hv hi hb =>
    cases v with
    | raw => exact accounts_rawBlock hv hi offset
    | comment => exact accounts_commentBlock offset raw body closing

theorem Layout.accounts {offset : Nat} {cs : List Char} {ps : List Piece}
    (h : Layout offset cs ps) : Accounts offset cs ps := by
  induction h with
  | nil offset => exact accounts_nil offset
  | text hne h ih => exact (accounts_text _ hne).append ih
  | construct hk h ih => exact hk.accounts.append ih

/-- **Nothing is lost.**  Every piece of a template is the part of the source that stands at its
offset.  The spans of the pieces other than trim markers strictly increase and do not overlap.  A
byte in none of them is a minus sign with a trim marker of its own beside a delimiter of a tag or an
output, or belongs to a tag of a `raw` block. -/
theorem pieces_lossless {source : String} {ps : List Piece} (h : pieces source = .ok ps) :
    (∀ p ∈ ps, ∃ before after, source.toList = before ++ p.lexeme ++ after ∧
      p.offset = Text.byteLength before) ∧
    ((spans ps).Pairwise fun p q =>
      p.stop ≤ q.offset ∧ (p.offset < q.offset ∨ p.stop < q.stop)) ∧
    ∀ i < Text.byteLength source.toList,
      (∃ p ∈ spans ps, p.offset ≤ i ∧ i < p.stop) ∨ IsMarkerAt ps i ∨
        InRawTag 0 source.toList ps i := by
  have ha := (layout_of_piecesFrom h).accounts
  refine ⟨fun p hp => ?_, ha.ordered, fun i hi => ha.covered i (Nat.zero_le i) (by omega)⟩
  obtain ⟨before, after, hs, ho⟩ := ha.slice p hp
  exact ⟨before, after, hs, ho.trans (Nat.zero_add _)⟩

/-- A `raw` block behind a character of two bytes, and an output with two trim markers. -/
theorem pieces_lossless_raw : ∃ ps,
    pieces "\u00e9\x7b%- raw %\x7d\x7b\x7b\x7b%- endraw %\x7d\x7b\x7b- x -\x7d\x7d" = .ok ps ∧
    (∀ p ∈ ps, ∃ before after,
      "\u00e9\x7b%- raw %\x7d\x7b\x7b\x7b%- endraw %\x7d\x7b\x7b- x -\x7d\x7d".toList =
        before ++ p.lexeme ++ after ∧ p.offset = Text.byteLength before) ∧
    ((spans ps).Pairwise fun p q =>
      p.stop ≤ q.offset ∧ (p.offset < q.offset ∨ p.stop < q.stop)) ∧
    ∀ i < Text.byteLength
        "\u00e9\x7b%- raw %\x7d\x7b\x7b\x7b%- endraw %\x7d\x7b\x7b- x -\x7d\x7d".toList,
      (∃ p ∈ spans ps, p.offset ≤ i ∧ i < p.stop) ∨ IsMarkerAt ps i ∨
        InRawTag 0
          "\u00e9\x7b%- raw %\x7d\x7b\x7b\x7b%- endraw %\x7d\x7b\x7b- x -\x7d\x7d".toList ps i := by
  have hok : (pieces
      "\u00e9\x7b%- raw %\x7d\x7b\x7b\x7b%- endraw %\x7d\x7b\x7b- x -\x7d\x7d").isOk = true := by
    decide +kernel
  obtain ⟨ps, hps⟩ := exists_of_isOk hok
  exact ⟨ps, hps, pieces_lossless hps⟩

end TemplateEngine.Markup
