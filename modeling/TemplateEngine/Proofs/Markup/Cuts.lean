import TemplateEngine.Proofs.Except
import TemplateEngine.Proofs.Markup.Ends

/-!
# Where a template can be cut

A construct is read from its own characters (`IsOwn`).  So a text that ends with a construct is cut
into the same pieces in front of every text, and the pieces behind are those of what follows
(`Cut`).  Every text that can be cut into pieces is such a text with a last run of characters behind
it in which nothing opens (`exists_cut`).

How far a text is from the start of the template shows in the offsets and nowhere else
(`piecesFrom_shift`).
-/

namespace TemplateEngine

/-- The error of a text that begins `n` bytes further on. -/
def Error.shift (n : Nat) : Error → Error
  | .parse fault offset => .parse fault (offset + n)
  | .render fault offset => .render fault (offset.map (· + n))
  | .registry fault => .registry fault

namespace Markup

/-! ### Constructs -/

theorem Delimiter.opening?_eq_some_iff {d : Delimiter} {cs : List Char} :
    Delimiter.opening? cs = some d ↔ ∃ rest, cs = d.opener ++ rest := by
  constructor
  · intro h
    unfold Delimiter.opening? at h
    split at h <;> cases h <;> exact ⟨_, rfl⟩
  · rintro ⟨rest, rfl⟩
    cases d <;> rfl

theorem Delimiter.closer_ne_nil (d : Delimiter) : d.closer ≠ [] := by cases d <;> nofun

/-- The construct is read from this text, whatever stands behind it. -/
structure IsOwn (d : Delimiter) (offset : Nat) (own : List Char) (k : Construct) : Prop where
  opener : ∃ more, own = d.opener ++ more
  length : own.length = k.length
  read : ∀ rest, readConstruct d offset (own ++ rest) = .ok k

theorem Delimiter.length_opener (d : Delimiter) : d.opener.length = 2 := by cases d <;> rfl

theorem IsOwn.two_le_length {d : Delimiter} {offset : Nat} {own : List Char} {k : Construct}
    (h : IsOwn d offset own k) : 2 ≤ own.length := by
  obtain ⟨more, rfl⟩ := h.opener
  rw [List.length_append, d.length_opener]
  exact Nat.le_add_right 2 _

/-- A tag or an output with this between its delimiters. -/
def Delimiter.wrap (d : Delimiter) (raw : List Char) : List Char := d.opener ++ raw ++ d.closer

theorem Delimiter.length_wrap (d : Delimiter) (raw : List Char) :
    (d.wrap raw).length = raw.length + 4 := by
  cases d <;> simp [wrap, opener, closer]

theorem readInner_wrap {d : Delimiter} {raw : List Char}
    (h : PassesOver d.closer none 0 raw) (offset : Nat) (rest : List Char) :
    readInner d offset (d.wrap raw ++ rest) = .ok raw := by
  have hdrop : (d.wrap raw ++ rest).drop 2 = raw ++ d.closer ++ rest := by
    cases d <;> simp [Delimiter.wrap, Delimiter.opener]
  rw [readInner, hdrop, findClose?_of_passesOver d.closer_ne_nil h]
  simp

theorem exists_wrap_of_readInner {d : Delimiter} {offset : Nat} {cs raw : List Char}
    (h : readInner d offset (d.opener ++ cs) = .ok raw) :
    ∃ rest, d.opener ++ cs = d.wrap raw ++ rest ∧ PassesOver d.closer none 0 raw := by
  have hdrop : (d.opener ++ cs).drop 2 = cs := by cases d <;> rfl
  rw [readInner, hdrop] at h
  split at h
  · cases h
  · next n hn =>
    cases h
    obtain ⟨body, rest, rfl, rfl, hb⟩ := passesOver_of_findClose? hn
    rw [List.append_assoc, List.take_left]
    exact ⟨rest, by simp [Delimiter.wrap], hb⟩

/-- The pieces of a comment with this between its delimiters. -/
def commentPieces (offset : Nat) (body : List Char) : List Piece :=
  (if body.head? == some '-' then [⟨.trimLeft, ['-'], offset + 2⟩] else []) ++
    ⟨.comment, Delimiter.comment.wrap body, offset⟩ ::
      (if 1 < body.length ∧ body.getLast? = some '-' then
        [⟨.trimRight, ['-'], offset + 1 + Text.byteLength body⟩] else [])

/-- A comment is read to its first closing delimiter. -/
theorem readComment_wrap {body : List Char} (hb : Unclosed Delimiter.comment.closer body)
    (offset : Nat) (rest : List Char) :
    readComment offset (Delimiter.comment.wrap body ++ rest) =
      .ok ⟨commentPieces offset body, body.length + 4⟩ := by
  have hdrop : (Delimiter.comment.wrap body ++ rest).drop 2 =
      body ++ Delimiter.comment.closer ++ rest := by
    simp [Delimiter.wrap, Delimiter.opener]
  have hfind := (find?_eq_some_iff (Delimiter.closer_ne_nil .comment)).mpr
    ⟨body, rest, rfl, rfl, hb⟩
  rw [readComment, hdrop, hfind]
  simp only [List.append_assoc, List.take_left, ← Delimiter.length_wrap .comment, commentPieces]

theorem exists_wrap_of_readComment {offset : Nat} {cs : List Char} {k : Construct}
    (h : readComment offset (Delimiter.comment.opener ++ cs) = .ok k) :
    ∃ body rest, Delimiter.comment.opener ++ cs = Delimiter.comment.wrap body ++ rest ∧
      Unclosed Delimiter.comment.closer body := by
  have hdrop : (Delimiter.comment.opener ++ cs).drop 2 = cs := rfl
  rw [readComment, hdrop] at h
  split at h
  · cases h
  · next n hn =>
    obtain ⟨body, rest, rfl, -, hb⟩ := (find?_eq_some_iff (Delimiter.closer_ne_nil _)).mp hn
    exact ⟨body, rest, by simp [Delimiter.wrap], hb⟩

theorem isTagName_closer (v : Verbatim) : IsTagName ("end" ++ v.name).toList := by
  cases v <;> decide

/-- A verbatim block with its opening tag, its body and its closing tag. -/
def blockText (raw body closing : List Char) : List Char :=
  Delimiter.tag.wrap raw ++ body ++ closingTag closing

theorem length_blockText (raw body closing : List Char) :
    (blockText raw body closing).length = raw.length + body.length + closing.length + 8 := by
  simp [blockText, Delimiter.length_wrap, closingTag, Delimiter.opener, Delimiter.closer]
  omega

/-- The pieces of a verbatim block. -/
def blockPieces (v : Verbatim) (offset : Nat) (raw body closing : List Char) : List Piece :=
  let start := offset + 4 + Text.byteLength raw
  let stop := start + Text.byteLength body
  let middle :=
    match v with
    | .raw =>
      (Inner.ofChars raw).rightMarker (offset + 2) ++
        ⟨.text, body, start⟩ :: (Inner.ofChars closing).leftMarker (stop + 2)
    | .comment => [⟨.comment, blockText raw body closing, offset⟩]
  (Inner.ofChars raw).leftMarker (offset + 2) ++ middle ++
    (Inner.ofChars closing).rightMarker (stop + 2)

/-- A verbatim block is read to its first closing tag. -/
theorem readVerbatim_blockText {v : Verbatim} {body closing : List Char}
    (hi : IsClosing ("end" ++ v.name).toList closing)
    (hb : NoClosing ("end" ++ v.name).toList body) (raw : List Char) (offset : Nat)
    (rest : List Char) :
    readVerbatim v offset raw (blockText raw body closing ++ rest) =
      .ok ⟨blockPieces v offset raw body closing, (blockText raw body closing).length⟩ := by
  have hdrop : (blockText raw body closing ++ rest).drop (raw.length + 4) =
      body ++ closingTag closing ++ rest := by
    rw [blockText, List.append_assoc, List.append_assoc, ← Delimiter.length_wrap .tag,
      List.drop_left, List.append_assoc]
  have hfind := (findClosingTag?_eq_some_iff (isTagName_closer v)).mpr
    ⟨body, rest, rfl, rfl, hi, hb⟩
  simp only [readVerbatim, hdrop, hfind, ← length_blockText]
  cases v with
  | raw => simp only [List.append_assoc, List.take_left, blockPieces]
  | comment => simp only [List.append_assoc, List.take_left, blockPieces]

/-- A verbatim block is read from its own characters. -/
theorem exists_blockText {v : Verbatim} {offset : Nat} {raw cs : List Char} {k : Construct}
    (h : readVerbatim v offset raw (Delimiter.tag.wrap raw ++ cs) = .ok k) :
    ∃ body closing rest, Delimiter.tag.wrap raw ++ cs = blockText raw body closing ++ rest ∧
      IsClosing ("end" ++ v.name).toList closing ∧ NoClosing ("end" ++ v.name).toList body := by
  have hdrop : (Delimiter.tag.wrap raw ++ cs).drop (raw.length + 4) = cs := by
    rw [← Delimiter.length_wrap .tag, List.drop_left]
  simp only [readVerbatim, hdrop] at h
  split at h
  · cases h
  · next n closing hfind =>
    obtain ⟨body, rest, rfl, -, hi, hb⟩ :=
      (findClosingTag?_eq_some_iff (isTagName_closer v)).mp hfind
    exact ⟨body, closing, rest, by simp [blockText], hi, hb⟩

theorem readConstruct_tag {raw : List Char} (h : PassesOver Delimiter.tag.closer none 0 raw)
    (offset : Nat) (rest : List Char) :
    readConstruct .tag offset (Delimiter.tag.wrap raw ++ rest) =
      match Verbatim.ofSource? (Inner.ofChars raw).source with
      | some v => readVerbatim v offset raw (Delimiter.tag.wrap raw ++ rest)
      | none => .ok (delimited .tag offset raw) := by
  rw [readConstruct, readInner_wrap h]
  rfl

theorem isOwn_wrap_comment {body : List Char} (hb : Unclosed Delimiter.comment.closer body)
    (offset : Nat) : IsOwn .comment offset (Delimiter.comment.wrap body)
      ⟨commentPieces offset body, body.length + 4⟩ :=
  ⟨⟨_, List.append_assoc ..⟩, Delimiter.length_wrap _ _, readComment_wrap hb _⟩

theorem isOwn_blockText {v : Verbatim} {raw body closing : List Char}
    (hp : PassesOver Delimiter.tag.closer none 0 raw)
    (hv : Verbatim.ofSource? (Inner.ofChars raw).source = some v)
    (hi : IsClosing ("end" ++ v.name).toList closing)
    (hb : NoClosing ("end" ++ v.name).toList body) (offset : Nat) :
    IsOwn .tag offset (blockText raw body closing)
      ⟨blockPieces v offset raw body closing, (blockText raw body closing).length⟩ := by
  refine ⟨⟨raw ++ Delimiter.tag.closer ++ body ++ closingTag closing, ?_⟩, rfl, fun rest => ?_⟩
  · simp [blockText, Delimiter.wrap]
  · have hread : readConstruct .tag offset (blockText raw body closing ++ rest) =
        readVerbatim v offset raw (blockText raw body closing ++ rest) := by
      rw [blockText, List.append_assoc, List.append_assoc, readConstruct_tag hp, hv]
    rw [hread, readVerbatim_blockText hi hb]

/-- A construct is read from its own characters. -/
theorem exists_isOwn {d : Delimiter} {offset : Nat} {cs : List Char} {k : Construct}
    (hd : Delimiter.opening? cs = some d) (h : readConstruct d offset cs = .ok k) :
    ∃ own rest, cs = own ++ rest ∧ IsOwn d offset own k := by
  obtain ⟨cs, rfl⟩ := Delimiter.opening?_eq_some_iff.mp hd
  cases d with
  | comment =>
    obtain ⟨body, rest, he, hb⟩ := exists_wrap_of_readComment h
    rw [he, readConstruct, readComment_wrap hb] at h
    cases h
    exact ⟨_, rest, he, isOwn_wrap_comment hb offset⟩
  | output =>
    obtain ⟨raw, hraw, rfl⟩ := map_eq_ok_iff.mp h
    obtain ⟨rest, he, hp⟩ := exists_wrap_of_readInner hraw
    refine ⟨_, rest, he, ⟨⟨_, List.append_assoc ..⟩, Delimiter.length_wrap _ _, fun rest' => ?_⟩⟩
    rw [readConstruct, readInner_wrap hp]
    rfl
  | tag =>
    obtain ⟨raw, hraw, -⟩ := bind_eq_ok_iff.mp h
    obtain ⟨rest, he, hp⟩ := exists_wrap_of_readInner hraw
    rw [he, readConstruct_tag hp] at h
    split at h
    · next v hv =>
      obtain ⟨body, closing, rest', hcs, hi, hb⟩ := exists_blockText h
      rw [hcs, readVerbatim_blockText hi hb] at h
      cases h
      exact ⟨_, rest', he.trans hcs, isOwn_blockText hp hv hi hb offset⟩
    · next hv =>
      cases h
      refine ⟨_, rest, he, ⟨_, List.append_assoc ..⟩, Delimiter.length_wrap _ _, fun rest' => ?_⟩
      rw [readConstruct_tag hp, hv]

/-! ### Runs of characters -/

/-- Nothing opens in the text. -/
def Plain (cs : List Char) : Prop := textRun cs = cs.length

theorem opening?_cons_cons (c d : Char) (cs : List Char) :
    Delimiter.opening? (c :: d :: cs) = Delimiter.opening? [c, d] := by
  by_cases hc : c = '\x7b'
  · subst hc
    simp only [Delimiter.opening?]
    split <;> simp_all
  · simp [Delimiter.opening?, hc]

theorem opening?_singleton (c : Char) : Delimiter.opening? [c] = none := by
  unfold Delimiter.opening?
  split <;> simp_all

theorem opening?_of_ne_lbrace {c : Char} (h : c ≠ '\x7b') (cs : List Char) :
    Delimiter.opening? (c :: cs) = none := by
  simp [Delimiter.opening?, h]

theorem textRun_cons (c : Char) (cs : List Char) :
    textRun (c :: cs) = if (Delimiter.opening? (c :: cs)).isSome then 0 else textRun cs + 1 := rfl

/-- A run is as long as the text, or something opens behind it. -/
theorem drop_textRun (cs : List Char) :
    Plain cs ∨ ∃ d, Delimiter.opening? (cs.drop (textRun cs)) = some d := by
  induction cs with
  | nil => exact .inl rfl
  | cons c cs ih =>
    by_cases hd : (Delimiter.opening? (c :: cs)).isSome
    · rw [textRun, if_pos hd]
      exact .inr (Option.isSome_iff_exists.mp hd)
    · rw [Plain, textRun, if_neg hd, List.length_cons, Nat.add_right_cancel_iff,
        List.drop_succ_cons]
      exact ih

theorem textRun_le (cs : List Char) : textRun cs ≤ cs.length := by
  induction cs with
  | nil => rfl
  | cons c cs ih =>
    rw [textRun]
    split
    · simp
    · simpa using ih

/-- Where something opens in a text, it opens in front of every text. -/
theorem textRun_append_of_not_plain {cs : List Char} (h : ¬ Plain cs) (rest : List Char) :
    textRun (cs ++ rest) = textRun cs := by
  induction cs with
  | nil => exact absurd rfl h
  | cons c cs ih =>
    cases cs with
    | nil =>
      refine absurd ?_ h
      simp [Plain, textRun, opening?_singleton]
    | cons d cs =>
      rw [Plain, textRun, opening?_cons_cons] at h
      rw [textRun_cons c (d :: cs), List.cons_append, List.cons_append, textRun_cons c,
        opening?_cons_cons c d cs, opening?_cons_cons]
      split
      · rfl
      · next hd =>
        rw [if_neg hd, List.length_cons, Nat.add_right_cancel_iff] at h
        rw [← List.cons_append, ih h]

/-- A run does not depend on what stands behind the delimiter that ends it. -/
theorem textRun_of_append {cs : List Char} (rest : List Char)
    (h : textRun (cs ++ rest) + 2 ≤ cs.length) :
    textRun cs = textRun (cs ++ rest) := by
  induction cs with
  | nil => simp at h
  | cons c cs ih =>
    cases cs with
    | nil => simp at h
    | cons d cs =>
      rw [List.cons_append, List.cons_append, textRun_cons c, opening?_cons_cons] at h
      rw [textRun_cons c (d :: cs), List.cons_append, List.cons_append, textRun_cons c,
        opening?_cons_cons, opening?_cons_cons c d (cs ++ rest)]
      split
      · rfl
      · next hd =>
        rw [if_neg hd, List.length_cons] at h
        rw [ih (by simpa using h), List.cons_append]

/-- A text in which nothing opens runs on into what follows, unless it ends with a brace. -/
theorem textRun_append_of_plain {cs : List Char} (h : Plain cs) (hl : cs.getLast? ≠ some '\x7b')
    (rest : List Char) : textRun (cs ++ rest) = cs.length + textRun rest := by
  induction cs with
  | nil => simp
  | cons c cs ih =>
    have hd : ¬ (Delimiter.opening? (c :: cs)).isSome := by
      intro hd
      rw [Plain, textRun, if_pos hd] at h
      simp at h
    have hd' : ¬ (Delimiter.opening? (c :: (cs ++ rest))).isSome := by
      cases cs with
      | nil => simp [opening?_of_ne_lbrace (c := c) (by simpa using hl)]
      | cons d cs =>
        rw [List.cons_append, opening?_cons_cons]
        rwa [opening?_cons_cons] at hd
    have hcs : Plain cs := by
      rw [Plain, textRun, if_neg hd, List.length_cons, Nat.add_right_cancel_iff] at h
      exact h
    have hl' : cs.getLast? ≠ some '\x7b' := by
      cases cs with
      | nil => simp
      | cons d cs => rwa [List.getLast?_cons_cons] at hl
    rw [List.cons_append, textRun, if_neg hd', ih hcs hl', List.length_cons]
    omega

/-! ### Cuts -/

/-- The piece of a run of characters; none of an empty run. -/
def textPieces (offset : Nat) : List Char → List Piece
  | [] => []
  | c :: cs => [⟨.text, c :: cs, offset⟩]

/-- A template begins with a run of characters. -/
theorem piecesFrom_textRun (offset : Nat) (cs : List Char) :
    piecesFrom offset cs =
      (piecesFrom (offset + Text.byteLength (cs.take (textRun cs))) (cs.drop (textRun cs))).map
        (textPieces offset (cs.take (textRun cs)) ++ ·) := by
  have hid : ∀ x : Except Error (List Piece), x.map (fun ps => ps) = x := fun x => by
    cases x <;> rfl
  cases cs with
  | nil => simp [textRun, textPieces, hid]
  | cons c cs =>
    cases hd : Delimiter.opening? (c :: cs) with
    | some d =>
      have hrun : textRun (c :: cs) = 0 := by rw [textRun, hd]; rfl
      simp [hrun, textPieces, hid]
    | none =>
      have hrun : textRun (c :: cs) = textRun cs + 1 := by rw [textRun, hd]; rfl
      rw [piecesFrom, hd, hrun, List.take_succ_cons, List.drop_succ_cons, textPieces]
      rfl

/-- A construct and what follows it. -/
theorem IsOwn.piecesFrom {d : Delimiter} {offset : Nat} {own : List Char} {k : Construct}
    (h : IsOwn d offset own k) (rest : List Char) :
    piecesFrom offset (own ++ rest) =
      (Markup.piecesFrom (offset + Text.byteLength own) rest).map (k.pieces ++ ·) := by
  obtain ⟨more, hmore⟩ := h.opener
  have hd : Delimiter.opening? (own ++ rest) = some d :=
    Delimiter.opening?_eq_some_iff.mpr ⟨more ++ rest, by rw [hmore, List.append_assoc]⟩
  have hread := h.read rest
  obtain ⟨c, own', rfl⟩ : ∃ c own', own = c :: own' := by
    cases d <;> exact ⟨_, _, hmore⟩
  have htake : (c :: (own' ++ rest)).take k.length = c :: own' := by
    rw [← h.length, ← List.cons_append, List.take_left]
  have hdrop : (own' ++ rest).drop (k.length - 1) = rest := by
    rw [← h.length, List.length_cons, Nat.add_sub_cancel, List.drop_left]
  rw [List.cons_append] at hd hread ⊢
  rw [Markup.piecesFrom, hd]
  simp only [hread, htake, hdrop, bind, Except.bind]
  rfl

/-- The text is cut into these pieces, and what follows it is cut on its own. -/
def Cut (offset : Nat) (front : List Char) (ps : List Piece) : Prop :=
  ∀ rest, piecesFrom offset (front ++ rest) =
    (piecesFrom (offset + Text.byteLength front) rest).map (ps ++ ·)

theorem map_append_map_append (x : Except Error (List Piece)) (ps qs : List Piece) :
    (x.map (qs ++ ·)).map (ps ++ ·) = x.map (ps ++ qs ++ ·) := by
  cases x <;> simp [Except.map]

theorem cut_nil (offset : Nat) : Cut offset [] [] := by
  intro rest
  rw [List.nil_append, Text.byteLength_nil, Nat.add_zero]
  cases piecesFrom offset rest <;> rfl

theorem Cut.append {offset : Nat} {front front' : List Char} {ps qs : List Piece}
    (h : Cut offset front ps) (h' : Cut (offset + Text.byteLength front) front' qs) :
    Cut offset (front ++ front') (ps ++ qs) := by
  intro rest
  rw [List.append_assoc, h, h', Text.byteLength_append, Nat.add_assoc, map_append_map_append]

theorem IsOwn.cut {d : Delimiter} {offset : Nat} {own : List Char} {k : Construct}
    (h : IsOwn d offset own k) : Cut offset own k.pieces := h.piecesFrom

/-- A run of characters up to a construct, and the construct. -/
theorem IsOwn.cut_run {d : Delimiter} {offset : Nat} {run own : List Char} {k : Construct}
    (h : IsOwn d (offset + Text.byteLength run) own k)
    (hrun : textRun (run ++ own) = run.length) :
    Cut offset (run ++ own) (textPieces offset run ++ k.pieces) := by
  intro rest
  have hplain : ¬ Plain (run ++ own) := by
    have := h.two_le_length
    rw [Plain, hrun, List.length_append]
    omega
  rw [piecesFrom_textRun, textRun_append_of_not_plain hplain, hrun, List.append_assoc,
    List.take_left, List.drop_left, h.piecesFrom, Text.byteLength_append, Nat.add_assoc,
    map_append_map_append]

theorem exists_construct {offset : Nat} {cs : List Char} {ps : List Piece} {d : Delimiter}
    (hd : Delimiter.opening? cs = some d) (h : piecesFrom offset cs = .ok ps) :
    ∃ k, readConstruct d offset cs = .ok k := by
  cases cs with
  | nil => cases hd
  | cons c cs =>
    rw [piecesFrom, hd] at h
    obtain ⟨k, hk, -⟩ := bind_eq_ok_iff.mp h
    exact ⟨k, hk⟩

/-- A text that can be cut into pieces is cut behind its last construct; the run of characters that
is left is a piece when nothing follows. -/
theorem exists_cut {offset : Nat} {cs : List Char} {ps : List Piece}
    (h : piecesFrom offset cs = .ok ps) :
    ∃ front run qs, cs = front ++ run ∧ Cut offset front qs ∧ Plain run ∧
      ps = qs ++ textPieces (offset + Text.byteLength front) run := by
  induction hl : cs.length using Nat.strong_induction_on generalizing offset cs ps with
  | h l ih =>
    subst hl
    rw [piecesFrom_textRun, map_eq_ok_iff] at h
    obtain ⟨ps, hps, rfl⟩ := h
    rcases drop_textRun cs with hp | ⟨d, hd⟩
    · rw [hp] at hps ⊢
      rw [List.drop_length, piecesFrom] at hps
      cases hps
      exact ⟨[], cs, [], rfl, cut_nil _, hp, by simp⟩
    · obtain ⟨k, hk⟩ := exists_construct hd hps
      obtain ⟨own, rest, hcs, hown⟩ := exists_isOwn hd hk
      have hlen : (cs.take (textRun cs)).length = textRun cs := by
        rw [List.length_take, Nat.min_eq_left (textRun_le cs)]
      have hsplit : cs = cs.take (textRun cs) ++ own ++ rest := by
        rw [List.append_assoc, ← hcs, List.take_append_drop]
      generalize cs.take (textRun cs) = first at *
      have htwo := hown.two_le_length
      have hrun : textRun (first ++ own) = first.length := by
        rw [textRun_of_append rest, ← hsplit, hlen]
        rw [← hsplit, ← hlen, List.length_append]
        omega
      rw [hcs, hown.piecesFrom, map_eq_ok_iff] at hps
      obtain ⟨ps, hps, rfl⟩ := hps
      have hshort : rest.length < cs.length := by
        rw [hsplit, List.length_append, List.length_append]
        omega
      rw [Nat.add_assoc, ← Text.byteLength_append] at hps
      obtain ⟨front, run, qs, rfl, hcut, hplain, rfl⟩ := ih _ hshort hps rfl
      refine ⟨first ++ own ++ front, run, _, ?_, (hown.cut_run hrun).append hcut, hplain, ?_⟩
      · rw [hsplit, ← List.append_assoc]
      · rw [Text.byteLength_append (first ++ own), List.append_assoc, List.append_assoc,
          Nat.add_assoc]

/-- A text that can be cut and ends with no brace is cut in front of every construct. -/
theorem IsOwn.cut_append {d : Delimiter} {offset : Nat} {cs own : List Char} {ps : List Piece}
    {k : Construct} (hp : Markup.piecesFrom offset cs = .ok ps) (hl : cs.getLast? ≠ some '\x7b')
    (h : IsOwn d (offset + Text.byteLength cs) own k) :
    Cut offset (cs ++ own) (ps ++ k.pieces) := by
  obtain ⟨front, run, qs, rfl, hcut, hplain, rfl⟩ := exists_cut hp
  have hl' : run.getLast? ≠ some '\x7b' := fun he => hl (by simp [he])
  have hown : textRun own = 0 := by
    obtain ⟨more, rfl⟩ := h.opener
    cases d <;> rfl
  have hrun : textRun (run ++ own) = run.length := by
    rw [textRun_append_of_plain hplain hl', hown, Nat.add_zero]
  rw [Text.byteLength_append, ← Nat.add_assoc] at h
  rw [List.append_assoc, List.append_assoc]
  exact hcut.append (h.cut_run hrun)

/-! ### Offsets -/

/-- The piece of a text that begins `n` bytes further on. -/
def Piece.shift (n : Nat) (p : Piece) : Piece := { p with offset := p.offset + n }

/-- The construct of a text that begins `n` bytes further on. -/
def Construct.shift (n : Nat) (k : Construct) : Construct :=
  { k with pieces := k.pieces.map (Piece.shift n) }

/-- The result for a text that begins `n` bytes further on. -/
def shifted {α : Type} (n : Nat) (f : α → α) (x : Except Error α) : Except Error α :=
  (x.map f).mapError (Error.shift n)

theorem shifted_eq_ok_iff {α : Type} {n : Nat} {f : α → α} {x : Except Error α} {b : α} :
    shifted n f x = .ok b ↔ ∃ a, x = .ok a ∧ f a = b := by
  cases x <;> simp [shifted, Except.map, Except.mapError]

theorem shifted_bind {α β : Type} {n : Nat} {f : α → α} {h : β → β} {x x' : Except Error α}
    {g g' : α → Except Error β} (hx : x' = shifted n f x)
    (hg : ∀ a, g' (f a) = shifted n h (g a)) : x' >>= g' = shifted n h (x >>= g) := by
  subst hx
  cases x with
  | error e => rfl
  | ok a => exact hg a

theorem readComment_shift (offset n : Nat) (cs : List Char) :
    readComment (offset + n) cs = shifted n (Construct.shift n) (readComment offset cs) := by
  unfold readComment
  split
  · rfl
  · simp only [shifted, Except.map, Except.mapError, Construct.shift, Piece.shift, List.map_append,
      List.map_cons, apply_ite (List.map _), List.map_nil, Nat.add_right_comm _ n]

theorem readInner_shift (d : Delimiter) (offset n : Nat) (cs : List Char) :
    readInner d (offset + n) cs = shifted n id (readInner d offset cs) := by
  unfold readInner
  split <;> rfl

theorem leftMarker_shift (i : Inner) (offset n : Nat) :
    i.leftMarker (offset + n) = (i.leftMarker offset).map (Piece.shift n) := by
  cases h : i.trimLeft <;> simp [Inner.leftMarker, h, Piece.shift]

theorem rightMarker_shift (i : Inner) (offset n : Nat) :
    i.rightMarker (offset + n) = (i.rightMarker offset).map (Piece.shift n) := by
  cases h : i.trimRight <;> simp [Inner.rightMarker, h, Piece.shift, Nat.add_right_comm _ n]

theorem delimited_shift (d : Delimiter) (offset n : Nat) (raw : List Char) :
    delimited d (offset + n) raw = (delimited d offset raw).shift n := by
  simp only [delimited, Construct.shift, List.map_append, List.map_cons, List.map_nil, Piece.shift,
    Nat.add_right_comm _ n, leftMarker_shift, rightMarker_shift]

theorem readVerbatim_shift (v : Verbatim) (offset n : Nat) (raw cs : List Char) :
    readVerbatim v (offset + n) raw cs =
      shifted n (Construct.shift n) (readVerbatim v offset raw cs) := by
  simp only [readVerbatim, Nat.add_right_comm _ n]
  split
  · rfl
  · cases v <;>
      simp only [shifted, Except.map, Except.mapError, Construct.shift, List.map_append,
        List.map_cons, List.map_nil, Piece.shift, leftMarker_shift, rightMarker_shift]

theorem readConstruct_shift (d : Delimiter) (offset n : Nat) (cs : List Char) :
    readConstruct d (offset + n) cs =
      shifted n (Construct.shift n) (readConstruct d offset cs) := by
  cases d with
  | comment => exact readComment_shift offset n cs
  | output =>
    simp only [readConstruct, readInner_shift]
    cases readInner .output offset cs <;>
      simp [shifted, Except.map, Except.mapError, delimited_shift]
  | tag =>
    refine shifted_bind (readInner_shift .tag offset n cs) fun raw => ?_
    dsimp only [id]
    split
    · exact readVerbatim_shift ..
    · simp [shifted, Except.map, Except.mapError, pure, Except.pure, delimited_shift]

/-- How far a text is from the start of the template shows in the offsets only. -/
theorem piecesFrom_shift (offset n : Nat) (cs : List Char) :
    piecesFrom (offset + n) cs = shifted n (List.map (Piece.shift n)) (piecesFrom offset cs) := by
  induction hl : cs.length using Nat.strong_induction_on generalizing offset cs with
  | h l ih =>
    subst hl
    cases cs with
    | nil => simp [piecesFrom, shifted, Except.map, Except.mapError]
    | cons c cs =>
      rw [piecesFrom, piecesFrom]
      split
      · refine shifted_bind ?_ fun more => rfl
        rw [Nat.add_right_comm]
        exact ih _ (by simp only [List.length_drop, List.length_cons]; omega) _ _ rfl
      · refine shifted_bind (readConstruct_shift ..) fun k =>
          shifted_bind (f := List.map (Piece.shift n)) ?_ fun more => ?_
        · rw [Nat.add_right_comm]
          exact ih _ (by simp only [List.length_drop, List.length_cons]; omega) _ _ rfl
        · simp [shifted, Except.map, Except.mapError, pure, Except.pure, Construct.shift]

/-- What follows a cut: a run of characters, which goes on into the text behind it, and the rest of
that text. -/
theorem Cut.piecesFrom_run {front run : List Char} {qs : List Piece} (hcut : Cut 0 front qs)
    (hp : Plain run) (hl : run.getLast? ≠ some '\x7b') (b : List Char) :
    let n := Text.byteLength front + Text.byteLength (run ++ b.take (textRun b))
    Markup.piecesFrom 0 (front ++ (run ++ b)) =
      (shifted n (List.map (Piece.shift n)) (Markup.piecesFrom 0 (b.drop (textRun b)))).map
        (qs ++ textPieces (Text.byteLength front) (run ++ b.take (textRun b)) ++ ·) := by
  have htake : (run ++ b).take (run.length + textRun b) = run ++ b.take (textRun b) :=
    List.take_length_add_append _
  have hdrop : (run ++ b).drop (run.length + textRun b) = b.drop (textRun b) :=
    List.drop_length_add_append _
  intro n
  rw [hcut, piecesFrom_textRun, textRun_append_of_plain hp hl, htake, hdrop, map_append_map_append,
    Nat.zero_add, ← piecesFrom_shift, Nat.zero_add]

end Markup

end TemplateEngine
