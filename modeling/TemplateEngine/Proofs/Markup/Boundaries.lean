import TemplateEngine.Proofs.Markup.Failures
import TemplateEngine.Proofs.Markup.Layout

/-!
# Templates one behind the other

A template that ends with a construct is read in front of every text as it is read alone, and what
follows is read as if it began there (`pieces_append`).  Nothing in front of a construct's end
depends on what stands behind it: neither the end of a string or of a brace, nor where a delimiter
or a closing tag is found.
-/

namespace TemplateEngine.Markup

/-- The template is empty, or its last pieces are those of a construct at its end. -/
def EndsWithConstruct (source : String) : Prop :=
  source = "" ∨ ∃ front own ps qs, source.toList = front ++ own ∧
    pieces source = .ok (ps ++ qs) ∧ IsConstruct (Text.byteLength front) own qs

/-! ### The last piece -/

theorem IsConstruct.ne_nil {offset : Nat} {own : List Char} {ps : List Piece}
    (h : IsConstruct offset own ps) : ps ≠ [] := by
  cases h with
  | comment hb => simp [commentPieces]
  | @block v raw body closing hp hv hi hb => cases v <;> simp [blockPieces]
  | source hd hp hv => simp [delimited]

/-- A text in a construct ends before the construct does. -/
theorem IsConstruct.stop_lt {offset : Nat} {own : List Char} {ps : List Piece}
    (h : IsConstruct offset own ps) {p : Piece} (hp : p ∈ ps) (hk : p.kind = .text) :
    p.stop < offset + Text.byteLength own := by
  have hspan : p ∈ spans ps := mem_spans.mpr ⟨hp, by rw [Piece.isMarker, hk]; rfl⟩
  cases h with
  | comment hb =>
    rw [spans_commentPieces, List.mem_singleton] at hspan
    simp [hspan] at hk
  | @source d raw hd hpass hv =>
    rw [pieces_delimited, Inner.spans_row] at hspan
    cases d <;> simp only [List.mem_cons, List.not_mem_nil, or_false] at hspan <;>
      rcases hspan with rfl | rfl | rfl <;> cases hk
  | @block v raw body closing hpass hv hi hb =>
    cases v with
    | comment =>
      rw [spans_blockPieces, List.mem_singleton] at hspan
      simp [hspan] at hk
    | raw =>
      rw [spans_blockPieces, List.mem_singleton] at hspan
      rw [hspan, Piece.stop, byteLength_blockText]
      dsimp only
      omega

/-- The last thing in a layout is a construct, unless a text ends with it. -/
theorem Layout.ends_with {offset : Nat} {cs : List Char} {ps : List Piece}
    (h : Layout offset cs ps)
    (ht : ∀ p ∈ ps, p.kind = .text → p.stop ≠ offset + Text.byteLength cs) :
    (cs = [] ∧ ps = []) ∨ ∃ front own ps' qs, cs = front ++ own ∧ ps = ps' ++ qs ∧
      IsConstruct (offset + Text.byteLength front) own qs := by
  induction h with
  | nil offset => exact .inl ⟨rfl, rfl⟩
  | @text offset cs rest ps hne h ih =>
    rw [Text.byteLength_append, ← Nat.add_assoc] at ht
    obtain ⟨hfirst, hmore⟩ := List.forall_mem_cons.mp ht
    rcases ih hmore with ⟨rfl, rfl⟩ | ⟨front, own, ps', qs, rfl, rfl, hk⟩
    · exact absurd rfl (hfirst rfl)
    · rw [Nat.add_assoc, ← Text.byteLength_append] at hk
      exact .inr ⟨cs ++ front, own, _ :: ps', qs, (List.append_assoc ..).symm, rfl, hk⟩
  | @construct offset own rest qs ps hk h ih =>
    rw [Text.byteLength_append, ← Nat.add_assoc] at ht
    rcases ih fun p hp => ht p (List.mem_append_right qs hp) with
      ⟨rfl, rfl⟩ | ⟨front, own', ps', qs', rfl, rfl, hk'⟩
    · exact .inr ⟨[], own, [], qs, by simp, by simp, hk⟩
    · rw [Nat.add_assoc, ← Text.byteLength_append] at hk'
      exact .inr ⟨own ++ front, own', qs ++ ps', qs', (List.append_assoc ..).symm,
        (List.append_assoc ..).symm, hk'⟩

/-- A template ends with a construct when it can be cut and no text ends with it. -/
theorem endsWithConstruct_of_pieces {source : String} {ps : List Piece}
    (h : pieces source = .ok ps)
    (ht : ∀ p ∈ ps, p.kind = .text → p.stop ≠ Text.byteLength source.toList) :
    EndsWithConstruct source := by
  rw [← Nat.zero_add (Text.byteLength _)] at ht
  rcases (layout_of_piecesFrom h).ends_with ht with ⟨hs, -⟩ | ⟨front, own, ps', qs, hs, rfl, hk⟩
  · exact .inl (String.toList_eq_nil_iff.mp hs)
  · rw [Nat.zero_add] at hk
    exact .inr ⟨front, own, ps', qs, hs, h, hk⟩

/-- No run of characters is left behind a construct at the end. -/
theorem EndsWithConstruct.cut {source : String} (h : EndsWithConstruct source) :
    ∃ ps, pieces source = .ok ps ∧ Cut 0 source.toList ps := by
  rcases h with rfl | ⟨front, own, ps, qs, hsource, hps, hconstruct⟩
  · exact ⟨[], by simp [pieces, piecesFrom], cut_nil 0⟩
  · refine ⟨ps ++ qs, hps, ?_⟩
    obtain ⟨first, run, ps', hfirst, hcut, hplain, hlast⟩ := exists_cut hps
    cases run with
    | nil =>
      rw [hlast, hfirst, textPieces, List.append_nil, List.append_nil]
      exact hcut
    | cons c run =>
      -- the run would be the last piece of the construct and end with the template
      exfalso
      rw [textPieces, ← List.dropLast_append_getLast hconstruct.ne_nil,
        ← List.append_assoc] at hlast
      obtain ⟨-, hlast⟩ := List.append_inj' hlast rfl
      have hmem := List.getLast_mem hconstruct.ne_nil
      rw [List.singleton_inj.mp hlast] at hmem
      have hstop := hconstruct.stop_lt hmem rfl
      have hbytes : Text.byteLength first + Text.byteLength (c :: run) =
          Text.byteLength front + Text.byteLength own := by
        rw [← Text.byteLength_append, ← Text.byteLength_append, ← hfirst, hsource]
      simp only [Piece.stop] at hstop
      omega

/-! ### What follows -/

/-- A template fails to be cut at one of its places. -/
theorem exists_parse_of_pieces {source : String} {e : Error} (h : pieces source = .error e) :
    ∃ fault offset, e = .parse fault offset := by
  have houtcome : Outcome (fun e => ∃ fault offset, e = .parse fault offset) (fun _ => True)
      (pieces source) :=
    outcome_piecesFrom (P := fun _ => True) (fun f o _ _ => ⟨f, o, rfl⟩) fun _ _ _ => trivial
  exact houtcome.of_error h

/-- **Templates are read one behind the other.**  A template that is empty or ends with a construct
is cut into the same pieces in front of every text.  Behind it come the pieces of that text, as many
bytes further on as the template has; where the text alone fails, the whole fails in the same way,
as many bytes further on. -/
theorem pieces_append {front : String} (h : EndsWithConstruct front) (back : String) :
    let n := Text.byteLength front.toList
    ∃ ps, pieces front = .ok ps ∧
      ((pieces (front ++ back)).isOk ↔ (pieces back).isOk) ∧
      (∀ qs, pieces back = .ok qs →
        pieces (front ++ back) = .ok (ps ++ qs.map (Piece.shift n))) ∧
      (∀ e, pieces back = .error e → ∃ fault offset, e = .parse fault offset ∧
        pieces (front ++ back) = .error (.parse fault (offset + n))) := by
  intro n
  obtain ⟨ps, hps, hcut⟩ := h.cut
  have hwhole : pieces (front ++ back) =
      (shifted n (List.map (Piece.shift n)) (pieces back)).map (ps ++ ·) := by
    rw [pieces, String.toList_append, hcut, piecesFrom_shift]
    rfl
  refine ⟨ps, hps, ?_, fun qs hqs => ?_, fun e he => ?_⟩
  · rw [hwhole]
    cases pieces back <;> rfl
  · rw [hwhole, hqs]
    rfl
  · obtain ⟨fault, offset, rfl⟩ := exists_parse_of_pieces he
    exact ⟨fault, offset, rfl, by rw [hwhole, he]; rfl⟩

/-- A `raw` block with a delimiter in its body and an output with one in a string, before a comment
that is never closed. -/
theorem pieces_append_raw : ∃ front, EndsWithConstruct front ∧
    pieces "a\x7b# b" = .error (.parse .unterminatedComment 1) ∧
    pieces (front ++ "a\x7b# b") = .error (.parse .unterminatedComment 37) := by
  let front :=
    "\u00e9\x7b% raw %\x7d\x7b\x7b\x7b%- endraw %\x7d\x7b\x7b '\x7d\x7d' \x7d\x7d"
  have hok : (pieces front).isOk = true := by decide +kernel
  have hbytes : Text.byteLength front.toList = 36 := by decide +kernel
  have htexts : ∀ ps ∈ (pieces front).toOption, ∀ p ∈ ps, p.kind = .text → p.stop ≠ 36 := by
    decide +kernel
  obtain ⟨ps, hps⟩ := exists_of_isOk hok
  have hends : EndsWithConstruct front :=
    endsWithConstruct_of_pieces hps (by rw [hbytes]; exact htexts ps (by rw [hps]; rfl))
  have hback : pieces "a\x7b# b" = .error (.parse .unterminatedComment 1) := by
    simp [pieces, piecesFrom, Delimiter.opening?, textRun, readConstruct, readComment, find?,
      Delimiter.closer, bind, Except.bind, Char.utf8Size]
  obtain ⟨-, -, -, -, herror⟩ := pieces_append hends "a\x7b# b"
  obtain ⟨fault, offset, he, hwhole⟩ := herror _ hback
  cases he
  rw [hbytes] at hwhole
  exact ⟨front, hends, hback, hwhole⟩

end TemplateEngine.Markup
