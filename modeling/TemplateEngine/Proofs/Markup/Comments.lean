import TemplateEngine.Proofs.Render.Bare

/-!
# Comments

A comment is one piece and leaves no item, so a template can be read exactly when it can be read
without the comment (`parse_comment`).  The trees agree as well, up to places and to texts side by
side, unless the comment splits a text: then a trim marker strips the half beside it and stops at
the comment, where without the comment it strips the text as a whole.
-/

namespace TemplateEngine.Markup

/-- A comment. -/
def comment (body : String) : String := "\x7b#" ++ body ++ "#\x7d"

theorem toList_comment (body : String) :
    (comment body).toList = Delimiter.comment.wrap body.toList := by
  simp [comment, Delimiter.wrap, Delimiter.opener, Delimiter.closer]

/-! ### The pieces around a comment -/

theorem unclosed_of_not_isInfix {close : List Char} {c : Char} (hc : close = [c, '\x7d'])
    (hne : c ≠ '\x7d') {cs : List Char} (h : ¬ close <:+: cs) : Unclosed close cs := by
  induction cs with
  | nil => trivial
  | cons d cs ih =>
    refine ⟨fun hp => ?_, ih fun hi => h (hi.trans (List.infix_cons (List.infix_refl cs)))⟩
    subst hc
    cases cs with
    | nil => simp [hne.symm] at hp
    | cons e cs =>
      refine h (List.IsPrefix.isInfix ?_)
      simpa using hp

theorem Cut.pieces_run {front run : List Char} {qs : List Piece} (hcut : Cut 0 front qs)
    (hp : Plain run) (hl : run.getLast? ≠ some '\x7b') (b : List Char) (ps : List Piece) :
    piecesFrom 0 (front ++ (run ++ b)) = .ok ps ↔
      ∃ rs, piecesFrom 0 (b.drop (textRun b)) = .ok rs ∧
        ps = qs ++ textPieces (Text.byteLength front) (run ++ b.take (textRun b)) ++
          rs.map (Piece.shift
            (Text.byteLength front + Text.byteLength (run ++ b.take (textRun b)))) := by
  rw [hcut.piecesFrom_run hp hl, map_eq_ok_iff]
  simp only [shifted_eq_ok_iff]
  constructor
  · rintro ⟨_, ⟨rs, hrs, rfl⟩, rfl⟩
    exact ⟨rs, hrs, rfl⟩
  · rintro ⟨rs, hrs, rfl⟩
    exact ⟨_, ⟨rs, hrs, rfl⟩, rfl⟩

/-- A comment without trim markers is one piece. -/
theorem commentPieces_eq {body : List Char} (hs : body.head? ≠ some '-')
    (he : body.getLast? ≠ some '-') (offset : Nat) :
    commentPieces offset body = [⟨.comment, Delimiter.comment.wrap body, offset⟩] := by
  simp [commentPieces, hs, he]

/-- A cut can be moved behind a run of characters and a comment. -/
theorem Cut.comment {front run body : List Char} {qs : List Piece} (hcut : Cut 0 front qs)
    (hp : Plain run) (hl : run.getLast? ≠ some '\x7b')
    (hc : ¬ Delimiter.comment.closer <:+: body) (hs : body.head? ≠ some '-')
    (he : body.getLast? ≠ some '-') :
    ∃ p : Piece, p.kind = .comment ∧
      Cut 0 (front ++ (run ++ Delimiter.comment.wrap body))
        (qs ++ textPieces (Text.byteLength front) run ++ [p]) := by
  have hown := isOwn_wrap_comment (unclosed_of_not_isInfix rfl (by decide) hc)
    (Text.byteLength front + Text.byteLength run)
  rw [commentPieces_eq hs he] at hown
  have hrun : textRun (run ++ Delimiter.comment.wrap body) = run.length := by
    rw [textRun_append_of_plain hp hl, Delimiter.wrap, Delimiter.opener]
    rfl
  have hfollow := hown.cut_run hrun
  rw [← Nat.zero_add (Text.byteLength front)] at hfollow
  refine ⟨⟨.comment, Delimiter.comment.wrap body, Text.byteLength front + Text.byteLength run⟩, rfl,
    ?_⟩
  rw [List.append_assoc, ← Nat.zero_add (Text.byteLength front)]
  exact hcut.append hfollow

/-! ### The items around a comment -/

/-- A comment between two pieces of a text: each is stripped on its outer side, and on the other
side when the other piece is empty. -/
def stripHalves (left right : Bool) (t t' : List Char) : List Char :=
  strip left (right && t'.isEmpty) t ++ strip (left && t.isEmpty) right t'

theorem items_concat_comment {p : Piece} (hp : p.kind = .comment) (ps : List Piece) :
    items (ps ++ [p]) = items ps := by
  simp [items, Trimming.step, hp]

theorem trimsOn_concat_comment {p : Piece} (hp : p.kind = .comment) (ps : List Piece) :
    trimsOn (ps ++ [p]) = trimsOn ps := by
  rw [trimsOn_concat, Piece.isContent, hp]
  rfl

/-- The text before a comment is an item, and no marker is pending behind it. -/
theorem items_text_comment {p : Piece} (hp : p.kind = .comment) (qs : List Piece) (c : Char)
    (cs : List Char) (offset : Nat) :
    items (qs ++ textPieces offset (c :: cs) ++ [p]) =
        items qs ++ [.text (strip (trimsOn qs) false (c :: cs))] ∧
      trimsOn (qs ++ textPieces offset (c :: cs) ++ [p]) = false := by
  rw [items_concat_comment hp, trimsOn_concat_comment hp, textPieces, items_concat_text,
    trimsOn_concat]
  exact ⟨rfl, rfl⟩

section

variable {rs : List Piece} (hr : ∀ b, Led b rs)

include hr

/-- A run of characters between two rows. -/
theorem items_run_cons (ps : List Piece) (c : Char) (cs : List Char) (offset n : Nat) :
    items (ps ++ textPieces offset (c :: cs) ++ rs.map (Piece.shift n)) =
      items ps ++ .text (strip (trimsOn ps) (trimsBack rs) (c :: cs)) ::
        (items rs).map (Item.shift n) := by
  rw [textPieces, ← List.append_cons, items_text hr]

theorem items_run_nil (ps : List Piece) (offset n : Nat) :
    items (ps ++ textPieces offset [] ++ rs.map (Piece.shift n)) =
      (if trimsBack rs then stripEnd (items ps) else items ps) ++
        (itemsAfter (trimsOn ps) rs).map (Item.shift n) := by
  rw [textPieces, List.append_nil, items_append hr]

/-- A run of characters is one text, or none. -/
theorem exists_items_run (ps : List Piece) (cs : List Char) :
    ∃ (before after : List Item) (ws : List (List Char)),
      ws.flatten = strip (trimsOn ps) (trimsBack rs) cs ∧
      ∀ ps', items ps' = items ps → trimsOn ps' = trimsOn ps → ∀ offset n,
        items (ps' ++ textPieces offset cs ++ rs.map (Piece.shift n)) =
          before ++ (ws.map .text ++ after.map (Item.shift n)) := by
  cases cs with
  | nil =>
    refine ⟨if trimsBack rs then stripEnd (items ps) else items ps, itemsAfter (trimsOn ps) rs, [],
      (strip_nil _ _).symm, fun ps' hi ht offset n => ?_⟩
    rw [items_run_nil hr, hi, ht]
    rfl
  | cons c cs =>
    refine ⟨items ps, items rs, [strip (trimsOn ps) (trimsBack rs) (c :: cs)], by simp,
      fun ps' hi ht offset n => ?_⟩
    rw [items_run_cons hr, hi, ht]
    rfl

/-- A comment changes the items by the texts at its place alone. -/
theorem exists_items_comment (qs : List Piece) (t t' : List Char) :
    ∃ (before after : List Item) (ws ws' : List (List Char)),
      ws.flatten = strip (trimsOn qs) (trimsBack rs) (t ++ t') ∧
      ws'.flatten = stripHalves (trimsOn qs) (trimsBack rs) t t' ∧
      (∀ offset n, items (qs ++ textPieces offset (t ++ t') ++ rs.map (Piece.shift n)) =
        before ++ (ws.map .text ++ after.map (Item.shift n))) ∧
      ∀ (p : Piece), p.kind = .comment → ∀ offset offset' n,
        items (qs ++ textPieces offset t ++ [p] ++ textPieces offset' t' ++
            rs.map (Piece.shift n)) =
          before ++ (ws'.map .text ++ after.map (Item.shift n)) := by
  cases t with
  | nil =>
    -- the comment stands between the row and the text behind it
    obtain ⟨before, after, ws, hws, h⟩ := exists_items_run hr qs t'
    refine ⟨before, after, ws, ws, hws, ?_, h qs rfl rfl, fun p hp offset offset' n => ?_⟩
    · rw [hws, stripHalves, strip_nil, List.isEmpty_nil, Bool.and_true, List.nil_append]
    · rw [textPieces, List.append_nil]
      exact h _ (items_concat_comment hp qs) (trimsOn_concat_comment hp qs) offset' n
  | cons c cs =>
    let first := strip (trimsOn qs) false (c :: cs)
    cases t' with
    | nil =>
      have hstrip : (if trimsBack rs then stripEnd (items qs ++ [.text first])
          else items qs ++ [.text first]) =
            items qs ++ [.text (strip (trimsOn qs) (trimsBack rs) (c :: cs))] := by
        rw [stripEnd_concat_text]
        cases trimsBack rs <;> rfl
      let whole := strip (trimsOn qs) (trimsBack rs) (c :: cs)
      refine ⟨items qs, items rs, [whole], [whole], ?_, ?_, ?_, ?_⟩
      · rw [List.append_nil, List.flatten_singleton]
      · simp [stripHalves, strip_nil, whole]
      · intro offset n
        rw [List.append_nil, items_run_cons hr]
        rfl
      · intro p hp offset offset' n
        obtain ⟨hitems, htrims⟩ := items_text_comment hp qs c cs offset
        rw [items_run_nil hr, hitems, htrims, hstrip, List.append_assoc]
        rfl
    | cons d ds =>
      refine ⟨items qs, items rs, [strip (trimsOn qs) (trimsBack rs) (c :: cs ++ d :: ds)],
        [first, strip false (trimsBack rs) (d :: ds)], List.flatten_singleton, ?_, ?_, ?_⟩
      · simp [stripHalves, first]
      · intro offset n
        rw [List.cons_append, items_run_cons hr]
        rfl
      · intro p hp offset offset' n
        obtain ⟨hitems, htrims⟩ := items_text_comment hp qs c cs offset
        rw [items_run_cons hr, hitems, htrims, List.append_assoc]
        rfl

end

/-! ### Templates with a comment -/

/-- What follows a run of texts may be moved, and the run may be another one. -/
theorem exists_ofItems_shift {registry : Tag.Registry} {mode : Mode} (hr : registry.Reachable)
    (hc : registry.FreeClauses) {before after : List Item} (ws ws' : List (List Char))
    {n : Nat} (n' : Nat) {x : List Node}
    (hx : Forest.ofItems registry mode
      (before ++ (ws.map .text ++ after.map (Item.shift n))) = .ok x) :
    ∃ y, Forest.ofItems registry mode
        (before ++ (ws'.map .text ++ after.map (Item.shift n'))) = .ok y ∧
      (bareAll x = bareAll y ↔ ws.flatten = ws'.flatten) := by
  have ha : (after.map (Item.shift n')).map Item.bare =
      (after.map (Item.shift n)).map Item.bare := by
    simp
  exact Forest.ofItems_texts hr hc ws ws' ha hx

theorem ofItems_isOk {registry : Tag.Registry} {mode : Mode} (hr : registry.Reachable)
    (hc : registry.FreeClauses) {before after : List Item} (ws ws' : List (List Char))
    (n n' : Nat) :
    (Forest.ofItems registry mode
        (before ++ (ws.map .text ++ after.map (Item.shift n)))).isOk =
      (Forest.ofItems registry mode
        (before ++ (ws'.map .text ++ after.map (Item.shift n')))).isOk := by
  rw [Bool.eq_iff_iff]
  constructor
  · intro h
    obtain ⟨x, hx⟩ := exists_of_isOk h
    obtain ⟨y, hy, -⟩ := exists_ofItems_shift hr hc ws ws' n' hx
    rw [hy]
    rfl
  · intro h
    obtain ⟨y, hy⟩ := exists_of_isOk h
    obtain ⟨x, hx, -⟩ := exists_ofItems_shift hr hc ws' ws n hy
    rw [hx]
    rfl

theorem bareAll_eq_iff {registry : Tag.Registry} {mode : Mode} (hr : registry.Reachable)
    (hc : registry.FreeClauses) {before after : List Item} {ws ws' : List (List Char)}
    {n n' : Nat} {xs ys : List Node}
    (hx : Forest.ofItems registry mode
      (before ++ (ws.map .text ++ after.map (Item.shift n))) = .ok xs)
    (hy : Forest.ofItems registry mode
      (before ++ (ws'.map .text ++ after.map (Item.shift n'))) = .ok ys) :
    bareAll xs = bareAll ys ↔ ws.flatten = ws'.flatten := by
  obtain ⟨y, hy', h⟩ := exists_ofItems_shift hr hc ws ws' n' hx
  cases hy.symm.trans hy'
  exact h

theorem parse_of_pieces (registry : Tag.Registry) (mode : Mode) {source : String}
    {ps : List Piece} (h : pieces source = .ok ps) :
    parse registry mode source = Forest.ofItems registry mode (items ps) := by
  rw [parse, h]
  rfl

theorem parse_isOk_of_not_pieces {registry : Tag.Registry} {mode : Mode} {source : String}
    (h : ∀ ps, pieces source ≠ .ok ps) : (parse registry mode source).isOk = false := by
  cases hp : pieces source with
  | ok ps => exact absurd hp (h ps)
  | error e =>
    rw [parse, hp]
    rfl

/-- **Comments.**  A template can be read with a comment exactly when it can be read without it.
The two trees agree up to places and to texts side by side exactly when stripping the text around
the comment as a whole and stripping its halves comes to the same; then they are rendered alike,
with every host and all variables. -/
theorem parse_comment (mode : Mode) {a b c : String} {ps : List Piece} (ha : pieces a = .ok ps)
    (hl : a.toList.getLast? ≠ some '\x7b') (hc : ¬ "#\x7d".toList <:+: c.toList)
    (hs : c.toList.head? ≠ some '-') (he : c.toList.getLast? ≠ some '-') :
    ∃ front run qs, a.toList = front ++ run ∧ Cut 0 front qs ∧ Plain run ∧
      ((parse .standard mode (a ++ comment c ++ b)).isOk =
        (parse .standard mode (a ++ b)).isOk) ∧
      ∀ xs ys, parse .standard mode (a ++ b) = .ok xs →
        parse .standard mode (a ++ comment c ++ b) = .ok ys →
        ∃ rs, piecesFrom 0 (b.toList.drop (textRun b.toList)) = .ok rs ∧
          (bareAll xs = bareAll ys ↔
            strip (trimsOn qs) (trimsBack rs) (run ++ b.toList.take (textRun b.toList)) =
              stripHalves (trimsOn qs) (trimsBack rs) run (b.toList.take (textRun b.toList))) ∧
          (bareAll xs = bareAll ys → ∀ host globals,
            (Template.renderNodes host mode globals xs).mapError Stop.bare =
              (Template.renderNodes host mode globals ys).mapError Stop.bare) := by
  obtain ⟨front, run, qs, hfront, hcut, hplain, -⟩ := exists_cut ha
  have hl' : run.getLast? ≠ some '\x7b' := fun h => hl (by simp [hfront, h])
  obtain ⟨p, hp, hcut'⟩ := hcut.comment hplain hl' hc hs he
  have hpieces := hcut.pieces_run hplain hl' b.toList
  have hpieces' := hcut'.pieces_run (show Plain [] from rfl) (by simp) b.toList
  have htext : (a ++ b).toList = front ++ (run ++ b.toList) := by
    rw [String.toList_append, hfront, List.append_assoc]
  have htext' : (a ++ Markup.comment c ++ b).toList =
      front ++ (run ++ Delimiter.comment.wrap c.toList) ++ ([] ++ b.toList) := by
    rw [String.toList_append, String.toList_append, hfront, toList_comment, List.append_assoc front,
      List.nil_append]
  rw [← htext] at hpieces
  rw [← htext'] at hpieces'
  refine ⟨front, run, qs, hfront, hcut, hplain, ?_⟩
  have hr : Tag.Registry.standard.Reachable := .standard
  have hfree := Tag.Registry.freeClauses_standard
  cases hrs : piecesFrom 0 (b.toList.drop (textRun b.toList)) with
  | error e =>
    -- what follows the run cannot be cut, with the comment and without it
    have hnone : (∀ all, pieces (a ++ b) ≠ .ok all) ∧
        ∀ all, pieces (a ++ comment c ++ b) ≠ .ok all := by
      simp only [ne_eq, pieces, hpieces, hpieces', hrs, reduceCtorEq, false_and, exists_false,
        not_false_eq_true, implies_true, and_self]
    rw [parse_isOk_of_not_pieces hnone.1, parse_isOk_of_not_pieces hnone.2]
    refine ⟨rfl, fun xs ys hx _ => ?_⟩
    obtain ⟨all, hall, -⟩ := bind_eq_ok_iff.mp hx
    exact absurd hall (hnone.1 all)
  | ok rs =>
    obtain ⟨before, after, ws, ws', hws, hws', hitems, hitems'⟩ :=
      exists_items_comment (led_of_piecesFrom hrs) qs run (b.toList.take (textRun b.toList))
    have hplain := parse_of_pieces .standard mode ((hpieces _).mpr ⟨rs, hrs, rfl⟩)
    have hcomment := parse_of_pieces .standard mode ((hpieces' _).mpr ⟨rs, hrs, rfl⟩)
    rw [hitems] at hplain
    rw [List.nil_append, hitems' p hp] at hcomment
    refine ⟨?_, fun xs ys hx hy => ⟨rs, rfl, ?_, fun h => ?_⟩⟩
    · rw [hcomment, hplain]
      exact ofItems_isOk hr hfree ws' ws _ _
    · rw [← hws, ← hws']
      exact bareAll_eq_iff hr hfree (hplain.symm.trans hx) (hcomment.symm.trans hy)
    · exact fun host globals =>
        Template.renderNodes_bare (allBuiltIn_of_parse hr (fun _ _ _ hd => hd) hx)
          (allBuiltIn_of_parse hr (fun _ _ _ hd => hd) hy) h host mode globals

/-- A comment in the middle of a text, in a block. -/
theorem parse_comment_in_text : ∃ ps front run qs,
    pieces "\x7b% if a %\x7dx " = .ok ps ∧ "\x7b% if a %\x7dx ".toList.getLast? ≠ some '\x7b' ∧
      ¬ "#\x7d".toList <:+: " \x7b\x7b # ".toList ∧ " \x7b\x7b # ".toList.head? ≠ some '-' ∧
      " \x7b\x7b # ".toList.getLast? ≠ some '-' ∧
      "\x7b% if a %\x7dx ".toList = front ++ run ∧ Cut 0 front qs ∧ Plain run ∧
      ((parse .standard .python
          ("\x7b% if a %\x7dx " ++ comment " \x7b\x7b # " ++ " y\x7b%- endif %\x7d")).isOk =
        (parse .standard .python ("\x7b% if a %\x7dx " ++ " y\x7b%- endif %\x7d")).isOk) ∧
      ∀ xs ys, parse .standard .python ("\x7b% if a %\x7dx " ++ " y\x7b%- endif %\x7d") = .ok xs →
        parse .standard .python
          ("\x7b% if a %\x7dx " ++ comment " \x7b\x7b # " ++ " y\x7b%- endif %\x7d") = .ok ys →
        ∃ rs, piecesFrom 0 (" y\x7b%- endif %\x7d".toList.drop
            (textRun " y\x7b%- endif %\x7d".toList)) = .ok rs ∧
          (bareAll xs = bareAll ys ↔
            strip (trimsOn qs) (trimsBack rs) (run ++ " y\x7b%- endif %\x7d".toList.take
                (textRun " y\x7b%- endif %\x7d".toList)) =
              stripHalves (trimsOn qs) (trimsBack rs) run (" y\x7b%- endif %\x7d".toList.take
                (textRun " y\x7b%- endif %\x7d".toList))) ∧
          (bareAll xs = bareAll ys → ∀ host globals,
            (Template.renderNodes host .python globals xs).mapError Stop.bare =
              (Template.renderNodes host .python globals ys).mapError Stop.bare) := by
  have hpieces : (pieces "\x7b% if a %\x7dx ").isOk = true := by decide +kernel
  obtain ⟨ps, hps⟩ := exists_of_isOk hpieces
  have hl : "\x7b% if a %\x7dx ".toList.getLast? ≠ some '\x7b' := by decide
  have hc : ¬ "#\x7d".toList <:+: " \x7b\x7b # ".toList := by decide
  have hs : " \x7b\x7b # ".toList.head? ≠ some '-' := by decide
  have he : " \x7b\x7b # ".toList.getLast? ≠ some '-' := by decide
  obtain ⟨front, run, qs, h⟩ :=
    parse_comment .python (b := " y\x7b%- endif %\x7d") hps hl hc hs he
  exact ⟨ps, front, run, qs, hps, hl, hc, hs, he, h⟩

/-- A comment that splits a text stops the marker in front of it: `{{ 1 -}} {#x#} b` keeps the blank
behind the comment, and the tree is not that of `{{ 1 -}}  b`. -/
theorem not_parse_comment_transparent :
    ¬ ∀ (mode : Mode) (a b c : String), (pieces a).isOk = true →
      a.toList.getLast? ≠ some '\x7b' → ¬ "#\x7d".toList <:+: c.toList →
      c.toList.head? ≠ some '-' → c.toList.getLast? ≠ some '-' →
      ((parse .standard mode (a ++ comment c ++ b)).isOk =
        (parse .standard mode (a ++ b)).isOk) ∧
      ∀ xs ys, parse .standard mode (a ++ b) = .ok xs →
        parse .standard mode (a ++ comment c ++ b) = .ok ys → bareAll xs = bareAll ys := by
  intro h
  let a := "\x7b\x7b 1 -\x7d\x7d "
  have hplain : (parse .standard .standard (a ++ " b")).map (fun xs => literal (marksOf xs)) =
      .ok ['b'] := by decide +kernel
  have hcomment : (parse .standard .standard (a ++ comment "x" ++ " b")).map
      (fun ys => literal (marksOf ys)) = .ok [' ', 'b'] := by decide +kernel
  obtain ⟨xs, hx, hxs⟩ := map_eq_ok_iff.mp hplain
  obtain ⟨ys, hy, hys⟩ := map_eq_ok_iff.mp hcomment
  have he := (h .standard a " b" "x" (by decide +kernel) (by decide) (by decide) (by decide)
    (by decide)).2 xs ys hx hy
  rw [← literal_bareAll, he, literal_bareAll, hys] at hxs
  simp at hxs

end TemplateEngine.Markup
