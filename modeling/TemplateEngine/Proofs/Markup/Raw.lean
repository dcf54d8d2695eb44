import TemplateEngine.Proofs.Markup.Bare

/-!
# Raw blocks

The body of a raw block is one piece, whatever it looks like: only its own closing tag ends it
(`pieces_rawBlock`).  So a template with a raw block is read item by item as what stands before it,
a text, and what stands behind it (`parse_rawBlock`).

The two tags of the block leave no item, and the trim markers of the constructs around it reach
across them.  The body is stripped at its start when a marker on the right is pending in front of
the block, and at its end when a marker on the left comes first behind it; without these markers
the text is the body as it stands.
-/

namespace TemplateEngine.Markup

/-- A raw block with this body. -/
def rawBlock (body : String) : String := "\x7b% raw %\x7d" ++ body ++ "\x7b% endraw %\x7d"

theorem toList_rawBlock (body : String) :
    (rawBlock body).toList = blockText " raw ".toList body.toList " endraw ".toList := by
  simp [rawBlock, blockText, closingTag, Delimiter.wrap, Delimiter.opener, Delimiter.closer]

theorem passesOver_raw : PassesOver Delimiter.tag.closer none 0 " raw ".toList :=
  .plain (by decide) (.plain (by decide) (.plain (by decide) (.plain (by decide)
    (.plain (by decide) .done))))

theorem isClosing_endraw : IsClosing "endraw".toList " endraw ".toList :=
  .intro (.inl rfl) Text.allBlank_space Text.allBlank_space (.inl rfl)

/-- A raw block is one text, whose body ends where the first closing tag begins. -/
theorem isOwn_rawBlock {body : String} (hb : NoClosing "endraw".toList body.toList)
    (offset : Nat) :
    IsOwn .tag offset (rawBlock body).toList
      ⟨[⟨.text, body.toList, offset + 9⟩], (rawBlock body).toList.length⟩ := by
  rw [toList_rawBlock]
  exact isOwn_blockText (v := .raw) passesOver_raw rfl isClosing_endraw hb offset

/-- The pieces of a template with a raw block: those before it, its body, and those behind it, which
are the pieces of what follows on its own. -/
theorem pieces_rawBlock {a s b : String} {ps rs : List Piece} (ha : pieces a = .ok ps)
    (hl : a.toList.getLast? ≠ some '\x7b') (hs : NoClosing "endraw".toList s.toList)
    (h : pieces (a ++ rawBlock s ++ b) = .ok rs) :
    ∃ qs, pieces b = .ok qs ∧
      rs = ps ++ ⟨.text, s.toList, Text.byteLength a.toList + 9⟩ ::
        qs.map (Piece.shift (Text.byteLength (a ++ rawBlock s).toList)) := by
  have hown := isOwn_rawBlock hs (0 + Text.byteLength a.toList)
  rw [pieces, String.toList_append, String.toList_append, hown.cut_append ha hl, Nat.zero_add,
    ← String.toList_append, ← Nat.zero_add (Text.byteLength _), piecesFrom_shift,
    map_eq_ok_iff] at h
  obtain ⟨more, hmore, rfl⟩ := h
  obtain ⟨qs, hqs, rfl⟩ := shifted_eq_ok_iff.mp hmore
  exact ⟨qs, hqs, by simp⟩

section

variable {registry : Tag.Registry} (hr : registry.Reachable) (hc : registry.FreeClauses)

include hr hc

/-- **Raw blocks.**  A template with a raw block is read as the marks of what stands before it, the
text of its body, and the marks of what stands behind it.  The text is the body, stripped at its
start exactly when a marker on the right is pending in front of the block, and at its end exactly
when a marker on the left comes before any text or source behind it. -/
theorem parse_rawBlock {mode : Mode} {a s b : String} {ps : List Piece} {nodes : List Node}
    (ha : pieces a = .ok ps) (hl : a.toList.getLast? ≠ some '\x7b')
    (hs : NoClosing "endraw".toList s.toList)
    (h : parse registry mode (a ++ rawBlock s ++ b) = .ok nodes) :
    ∃ qs before after, pieces b = .ok qs ∧
      marksOf nodes = before ++ textMarks (strip (trimsOn ps) (trimsBack qs) s.toList) ++ after ∧
      Reads registry mode (items ps) before ∧
      Reads registry mode
        ((items qs).map (Item.shift (Text.byteLength (a ++ rawBlock s).toList))) after := by
  obtain ⟨rs, hrs, hn⟩ := bind_eq_ok_iff.mp h
  obtain ⟨qs, hqs, rfl⟩ := pieces_rawBlock ha hl hs hrs
  rw [items_text (led_of_piecesFrom hqs)] at hn
  obtain ⟨ms, hms, hrun⟩ := (Forest.ofItems_ok_iff_runs hr hc _ _).mp hn
  obtain ⟨-, rfl⟩ := Forest.runs_empty_iff.mp hrun
  rw [List.append_cons, reads_append_iff] at hms
  obtain ⟨marks, after, he, hmarks, hafter⟩ := hms
  obtain ⟨before, _, rfl, hbefore, htext⟩ := reads_append_iff.mp hmarks
  cases reads_text_iff.mp htext
  exact ⟨qs, before, after, hqs, he, hbefore, hafter⟩

end

/-- A body that looks like markup, in a block that strips it at both ends. -/
theorem parse_rawBlock_markup : ∃ ps qs nodes before after,
    pieces "\x7b% if a -%\x7d" = .ok ps ∧
      "\x7b% if a -%\x7d".toList.getLast? ≠ some '\x7b' ∧
      NoClosing "endraw".toList " \x7b% endraw \x7b\x7b '%\x7d ".toList ∧
      parse .standard .python ("\x7b% if a -%\x7d" ++
        rawBlock " \x7b% endraw \x7b\x7b '%\x7d " ++ "\x7b# x #\x7d\x7b%- endif %\x7d") =
          .ok nodes ∧
      pieces "\x7b# x #\x7d\x7b%- endif %\x7d" = .ok qs ∧
      marksOf nodes = before ++ textMarks (strip (trimsOn ps) (trimsBack qs)
        " \x7b% endraw \x7b\x7b '%\x7d ".toList) ++ after ∧
      Reads .standard .python (items ps) before ∧
      Reads .standard .python ((items qs).map (Item.shift (Text.byteLength
        ("\x7b% if a -%\x7d" ++ rawBlock " \x7b% endraw \x7b\x7b '%\x7d ").toList))) after := by
  have hpieces : (pieces "\x7b% if a -%\x7d").isOk = true := by decide +kernel
  have hparse : (parse .standard .python ("\x7b% if a -%\x7d" ++
      rawBlock " \x7b% endraw \x7b\x7b '%\x7d " ++
        "\x7b# x #\x7d\x7b%- endif %\x7d")).isOk = true := by
    decide +kernel
  obtain ⟨ps, hps⟩ := exists_of_isOk hpieces
  obtain ⟨nodes, hn⟩ := exists_of_isOk hparse
  have hl : "\x7b% if a -%\x7d".toList.getLast? ≠ some '\x7b' := by decide
  have hs : NoClosing "endraw".toList " \x7b% endraw \x7b\x7b '%\x7d ".toList :=
    (findClosingTag?_eq_none_iff (by decide)).mp (by decide)
  obtain ⟨qs, before, after, hqs, he, hbefore, hafter⟩ :=
    parse_rawBlock .standard Tag.Registry.freeClauses_standard hps hl hs hn
  exact ⟨ps, qs, nodes, before, after, hps, hl, hs, hn, hqs, he, hbefore, hafter⟩

/-- The text of a mark. -/
def Mark.text? : Mark → Option String
  | .text s => some s
  | _ => none

/-- A marker in front of a raw block strips its body: the text of the block is not the body. -/
theorem not_parse_rawBlock_verbatim :
    ¬ ∀ (mode : Mode) (a s b : String) (nodes : List Node), (pieces a).isOk = true →
      a.toList.getLast? ≠ some '\x7b' → s ≠ "" → NoClosing "endraw".toList s.toList →
      (pieces b).isOk = true → parse .standard mode (a ++ rawBlock s ++ b) = .ok nodes →
      Mark.text s ∈ marksOf nodes := by
  intro h
  have hparse : (parse .standard .standard
      ("\x7b\x7b 1 -\x7d\x7d" ++ rawBlock " x" ++ "")).isOk = true := by decide +kernel
  obtain ⟨nodes, hn⟩ := exists_of_isOk hparse
  have htexts : (parse .standard .standard
      ("\x7b\x7b 1 -\x7d\x7d" ++ rawBlock " x" ++ "")).map
        (fun nodes => (marksOf nodes).filterMap Mark.text?) = .ok ["x"] := by decide +kernel
  have hs : NoClosing "endraw".toList " x".toList :=
    (findClosingTag?_eq_none_iff (by decide)).mp (by decide)
  have hmem := h .standard "\x7b\x7b 1 -\x7d\x7d" " x" "" nodes (by decide +kernel) (by decide)
    (by decide) hs (by decide +kernel) hn
  rw [hn] at htexts
  have hmem' : " x" ∈ (marksOf nodes).filterMap Mark.text? :=
    List.mem_filterMap.mpr ⟨_, hmem, rfl⟩
  have he : (marksOf nodes).filterMap Mark.text? = ["x"] := Except.ok.inj htexts
  simp [he] at hmem'

end TemplateEngine.Markup
