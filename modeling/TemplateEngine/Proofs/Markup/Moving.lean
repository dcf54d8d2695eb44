import TemplateEngine.Proofs.Markup.Bare
import TemplateEngine.Proofs.Markup.Failures
import TemplateEngine.Proofs.Markup.Trimming

/-!
# Templates behind a text

A text in front of a template in which no brace opens is added to the leading text of the template
and moves everything else: the tree is the same one further on, and so is the fault if there is one
(`agree_parse_append`).

The readers of expressions and of heads are uniform, so one item does the same to two forests of
which the second is further on (`Forest.Moved.agree_feed`); a row of items does by induction.
-/

namespace TemplateEngine

/-! ### Errors further on -/

/-- The second error is the first one, `n` bytes further on. -/
abbrev Error.Moved (n : Nat) (e e' : Error) : Prop := e' = e.shift n

theorem Error.shift_shift (m n : Nat) (e : Error) : (e.shift m).shift n = e.shift (m + n) := by
  cases e with
  | parse f o => simp [shift, Nat.add_assoc]
  | render f o => simp [shift, Function.comp_def, Nat.add_assoc]
  | registry f => rfl

namespace Markup

/-! ### Trees further on -/

/-- The head in a template that begins `n` bytes further on. -/
def Head.shift (n : Nat) (h : Head) : Head := { h with offset := h.offset + n }

@[simp] theorem Head.descriptor_shift (n : Nat) (h : Head) :
    (h.shift n).descriptor = h.descriptor := rfl

mutual

/-- The node in a template that begins `n` bytes further on. -/
def Node.shift (n : Nat) : Node → Node
  | .text s => .text s
  | .output e offset => .output e (offset + n)
  | .tag h children clauses => .tag (h.shift n) (shiftAll n children) (shiftClauses n clauses)

/-- The nodes in a template that begins `n` bytes further on. -/
def shiftAll (n : Nat) : List Node → List Node
  | [] => []
  | node :: nodes => node.shift n :: shiftAll n nodes

/-- The clauses in a template that begins `n` bytes further on. -/
def shiftClauses (n : Nat) : List (Head × List Node) → List (Head × List Node)
  | [] => []
  | (h, nodes) :: more => (h.shift n, shiftAll n nodes) :: shiftClauses n more

end

theorem shiftAll_eq_map (n : Nat) (nodes : List Node) :
    shiftAll n nodes = nodes.map (Node.shift n) := by
  induction nodes with
  | nil => rfl
  | cons node nodes ih => rw [shiftAll, ih, List.map_cons]

theorem shiftClauses_eq_map (n : Nat) (clauses : List (Head × List Node)) :
    shiftClauses n clauses = clauses.map fun c => (c.1.shift n, shiftAll n c.2) := by
  induction clauses with
  | nil => rfl
  | cons c clauses ih => rw [shiftClauses, ih, List.map_cons]

/-- The second row is the first one, `n` bytes further on; it begins with `ys` where the first one
begins with `xs`. -/
def Behind (n : Nat) (xs ys : List Node) (nodes nodes' : List Node) : Prop :=
  ∃ rest, nodes = xs ++ rest ∧ nodes' = ys ++ shiftAll n rest

/-- The open block in a template that begins `n` bytes further on. -/
def Block.shift (n : Nat) (b : Block) : Block :=
  ⟨b.head.shift n, shiftAll n b.children, shiftClauses n b.clauses, b.terminated⟩

@[simp] theorem Block.terminated_shift (n : Nat) (b : Block) :
    (b.shift n).terminated = b.terminated := rfl

theorem Block.push_shift (n : Nat) (b : Block) (node : Node) :
    (b.shift n).push (node.shift n) = (b.push node).shift n := by
  rcases b.clauses_cases with h | ⟨front, c, nodes, he⟩
  · have hs : (b.shift n).clauses = [] := by rw [shift, h, shiftClauses]
    rw [push_of_nil h, push_of_nil hs]
    simp [shift, shiftAll_eq_map]
  · have hs : (b.shift n).clauses =
        shiftClauses n front ++ [(c.shift n, shiftAll n nodes)] := by
      simp [shift, he, shiftClauses_eq_map]
    rw [push_of_concat he, push_of_concat hs]
    simp [shift, shiftClauses_eq_map, shiftAll_eq_map]

theorem Block.concat_shift (n : Nat) (b : Block) (h : Head) (t : Option String) :
    Block.shift n { b with clauses := b.clauses ++ [(h, [])], terminated := t } =
      { b.shift n with
        clauses := (b.shift n).clauses ++ [(h.shift n, [])]
        terminated := t } := by
  simp [shift, shiftClauses_eq_map, shiftAll]

@[simp] theorem Block.isOneOf_shift (n : Nat) (b : Block) (names : List String) :
    (b.shift n).isOneOf names = b.isOneOf names := rfl

@[simp] theorem Block.isEmpty_clauses_shift (n : Nat) (b : Block) :
    (b.shift n).clauses.isEmpty = b.clauses.isEmpty := by
  simp [shift, shiftClauses_eq_map]

/-! ### Readers further on -/

/-- The second place is the first one, `n` bytes further on. -/
abbrev Ahead (n : Nat) (o o' : Nat) : Prop := o' = o + n

theorem places_moved (n : Nat) : Places (Error.Moved n) (Ahead n) := by
  rintro f o _ - rfl
  rfl

/-- A text has the same tokens further on. -/
theorem sameTokens_moved (n : Nat) (cs : List Char) (base : Nat) :
    SameTokens (Error.Moved n) (Ahead n) cs base (base + n) := by
  refine sameTokens_of_carried ?_ fun before after _ => Nat.add_right_comm ..
  rintro f o _ rfl
  rfl

theorem ofChars_shift (cs : List Char) (offset n : Nat) :
    Words.ofChars cs (offset + n) =
      { Words.ofChars cs offset with restOffset := (Words.ofChars cs offset).restOffset + n } := by
  simp only [Words.ofChars, Nat.add_right_comm _ n]

/-- The source of a tag or an output in a template that begins `n` bytes further on. -/
def Source.shift (n : Nat) (source : Source) : Source :=
  { source with offset := source.offset + n, base := source.base + n }

theorem tagWords_shift (mode : Mode) (source : Source) (n : Nat) :
    Forest.tagWords mode (source.shift n) =
      { Forest.tagWords mode source with
        restOffset := (Forest.tagWords mode source).restOffset + n } := by
  unfold Forest.tagWords
  simp only [Source.shift, ofChars_shift]
  split
  · split
    · simp only
    · simp only
  · simp only

namespace Forest

/-- The second forest is the first one, `n` bytes further on; the nodes outside of blocks begin with
`xs` and with `ys`. -/
inductive Moved (n : Nat) (xs ys : List Node) : Forest → Forest → Prop where
  | mk (nodes : List Node) (stack : List Block) :
      Moved n xs ys ⟨xs ++ nodes, stack⟩ ⟨ys ++ shiftAll n nodes, stack.map (Block.shift n)⟩

section
variable {n : Nat} {xs ys : List Node} {f f' : Forest}

theorem Moved.push (h : Moved n xs ys f f') (node : Node) :
    Moved n xs ys (f.push node) (f'.push (node.shift n)) := by
  obtain ⟨nodes, stack⟩ := h
  cases stack with
  | nil => simpa [Forest.push, shiftAll_eq_map] using Moved.mk (nodes ++ [node]) []
  | cons b more =>
    simpa [Forest.push, Block.push_shift] using Moved.mk nodes (b.push node :: more)

theorem Moved.encloses (h : Moved n xs ys f f') (inside : List String) :
    f'.encloses inside = f.encloses inside := by
  obtain ⟨nodes, stack⟩ := h
  simp only [Forest.encloses, List.any_map, Function.comp_def, Block.isOneOf_shift,
    Block.isEmpty_clauses_shift]

theorem Moved.agree_addClause (h : Moved n xs ys f f') (head : Head) :
    Agree (Error.Moved n) (Moved n xs ys) (f.addClause head) (f'.addClause (head.shift n)) := by
  obtain ⟨nodes, _ | ⟨b, more⟩⟩ := h
  · exact .error rfl
  · refine .ite Iff.rfl (.error rfl) ?_
    rw [Block.terminated_shift]
    cases b.terminated with
    | some terminal => exact .error rfl
    | none =>
      let t := if head.descriptor.terminal then some head.name else none
      have hclause : Moved n xs ys _ _ :=
        .mk nodes ({ b with clauses := b.clauses ++ [(head, [])], terminated := t } :: more)
      rw [List.map_cons, Block.concat_shift] at hclause
      exact .ok hclause

theorem Moved.agree_addTag (h : Moved n xs ys f f') (head : Head) :
    Agree (Error.Moved n) (Moved n xs ys) (f.addTag head) (f'.addTag (head.shift n)) := by
  unfold addTag
  rw [Head.descriptor_shift]
  split
  · exact .ok (h.push _)
  · obtain ⟨nodes, stack⟩ := h
    exact .ok (.mk nodes (.ofHead head :: stack))
  · exact h.agree_addClause head

theorem Moved.agree_close (h : Moved n xs ys f f') (closer opener : String) (head : List Char)
    (offset : Nat) : Agree (Error.Moved n) (Moved n xs ys) (f.close closer opener head offset)
      (f'.close closer opener head (offset + n)) := by
  obtain ⟨nodes, _ | ⟨b, more⟩⟩ := h
  · exact .error rfl
  · refine .ite Iff.rfl (.error rfl) (.ite Iff.rfl (.error rfl) ?_)
    exact .ok (Moved.push (.mk nodes more) b.node)

theorem Moved.agree_finish (h : Moved n xs ys f f') :
    Agree (Error.Moved n) (Behind n xs ys) f.finish f'.finish := by
  obtain ⟨nodes, _ | ⟨b, more⟩⟩ := h
  · exact .ok ⟨nodes, rfl, rfl⟩
  · exact .error rfl

theorem Moved.agree_readOutput (h : Moved n xs ys f f') (mode : Mode) (source : Source) :
    Agree (Error.Moved n) (Moved n xs ys) (readOutput mode f source)
      (readOutput mode f' (source.shift n)) := by
  refine .ite Iff.rfl (.error rfl) ?_
  refine (Expr.agree_parse (places_moved n) mode (sameTokens_moved n _ _)).bind ?_
  rintro e _ rfl
  exact .ok (h.push (.output e source.offset))

theorem Moved.agree_readTag (h : Moved n xs ys f f') (registry : Tag.Registry) (mode : Mode)
    (source : Source) :
    Agree (Error.Moved n) (Moved n xs ys) (readTag registry mode f source)
      (readTag registry mode f' (source.shift n)) := by
  unfold readTag
  simp only [tagWords_shift, h.encloses]
  split
  · exact .error rfl
  · split
    · split
      · exact h.agree_close _ _ _ _
      · exact .error rfl
    · next d _ =>
      split
      · exact .error rfl
      · refine (agree_readArgs (places_moved n) mode d.start _ rfl
          (sameTokens_moved n _ _)).bind ?_
        rintro args _ rfl
        exact h.agree_addTag ⟨_, d, args, source.offset⟩

/-- One item does the same to a forest further on. -/
theorem Moved.agree_feed (h : Moved n xs ys f f') (registry : Tag.Registry) (mode : Mode)
    (item : Item) :
    Agree (Error.Moved n) (Moved n xs ys) (feed registry mode f item)
      (feed registry mode f' (item.shift n)) := by
  cases item with
  | text cs =>
    cases cs with
    | nil => exact .ok h
    | cons c cs => exact .ok (h.push _)
  | output source => exact h.agree_readOutput mode source
  | tag source => exact h.agree_readTag registry mode source

end

/-- Items further on have the tree further on, or the same fault there. -/
theorem agree_ofItems (registry : Tag.Registry) (mode : Mode) (n : Nat) (cs cs' : List Char)
    (items : List Item) :
    Agree (Error.Moved n) (Behind n (textNodes cs) (textNodes cs'))
      (ofItems registry mode (.text cs :: items))
      (ofItems registry mode (.text cs' :: items.map (Item.shift n))) := by
  have hfeed : ∀ ds, feed registry mode empty (.text ds) = .ok ⟨textNodes ds ++ [], []⟩ := by
    intro ds
    cases ds <;> rfl
  have hstart : Moved n (textNodes cs) (textNodes cs') _ _ := .mk [] []
  have hfold := Agree.foldlM (fun f f' hf item => hf.agree_feed registry mode item) hstart items
  rw [ofItems, ofItems, List.foldlM_cons, List.foldlM_cons, hfeed, hfeed]
  exact hfold.bind fun f f' hf => hf.agree_finish

end Forest

/-! ### Leading texts -/

/-- The text that a template begins with is stripped on its right only. -/
theorem ofItems_leading {rs : List Piece} (hr : ∀ b, Led b rs) (cs : List Char) (offset n : Nat)
    (registry : Tag.Registry) (mode : Mode) :
    Forest.ofItems registry mode (items (textPieces offset cs ++ rs.map (Piece.shift n))) =
      Forest.ofItems registry mode
        (.text (strip false (trimsBack rs) cs) :: (items rs).map (Item.shift n)) := by
  cases cs with
  | nil =>
    -- nothing stands before the row, and an empty text leaves no node
    have hnone : items (rs.map (Piece.shift n)) = (items rs).map (Item.shift n) := by
      have happend := items_append hr [] n
      have hstart : (if trimsBack rs then stripEnd (items []) else items []) = [] := by
        split <;> rfl
      rwa [hstart] at happend
    rw [textPieces, List.nil_append, hnone, strip_nil]
    rfl
  | cons c cs => exact congrArg _ (items_text hr [] (c :: cs) offset n)

theorem Item.shift_shift (m n : Nat) (item : Item) :
    (item.shift m).shift n = item.shift (m + n) := by
  cases item <;> simp [Item.shift, Nat.add_assoc]

/-- Nothing opens in a text without opening braces. -/
theorem plain_of_notMem {cs : List Char} (h : '\x7b' ∉ cs) : Plain cs := by
  induction cs with
  | nil => rfl
  | cons c cs ih =>
    rw [List.mem_cons, not_or] at h
    rw [Plain, textRun, opening?_of_ne_lbrace (Ne.symm h.1), ih h.2]
    rfl

/-- A template begins with a run of characters, and what follows does not depend on the run. -/
theorem piecesFrom_leading {run : List Char} (hp : Plain run) (hl : run.getLast? ≠ some '\x7b')
    (cs : List Char) :
    let n := Text.byteLength (run ++ cs.take (textRun cs))
    piecesFrom 0 (run ++ cs) =
      (shifted n (List.map (Piece.shift n)) (piecesFrom 0 (cs.drop (textRun cs)))).map
        (textPieces 0 (run ++ cs.take (textRun cs)) ++ ·) := by
  simpa using (cut_nil 0).piecesFrom_run hp hl cs

/-- **Texts in front.**  A template behind a text without opening braces has the tree of the
template, or its fault, that many bytes further on; the text goes to the leading text of the
template, which a trim marker behind it strips as before. -/
theorem agree_parse_append (registry : Tag.Registry) (mode : Mode) {p : String}
    (hp : '\x7b' ∉ p.toList) (source : String) :
    let n := Text.byteLength p.toList
    let run := source.toList.take (textRun source.toList)
    ∃ right : Bool, Agree (Error.Moved n)
      (Behind n (textNodes (strip false right run))
        (textNodes (strip false right (p.toList ++ run))))
      (parse registry mode source) (parse registry mode (p ++ source)) := by
  intro n run
  have hplain : Plain [] := rfl
  have hrun := piecesFrom_leading hplain (by simp) source.toList
  have hall := piecesFrom_leading (plain_of_notMem hp) (fun h => hp (List.mem_of_getLast? h))
    source.toList
  have hlength : Text.byteLength (p.toList ++ run) = Text.byteLength run + n := by
    rw [Text.byteLength_append, Nat.add_comm]
  rw [parse, parse, pieces, pieces, String.toList_append]
  rw [List.nil_append, List.nil_append] at hrun
  rw [hrun, hall, hlength]
  cases hrs : piecesFrom 0 (source.toList.drop (textRun source.toList)) with
  | error e => exact ⟨false, .error (Error.shift_shift _ _ _).symm⟩
  | ok rs =>
    have hitems : (items rs).map (Item.shift (Text.byteLength run + n)) =
        ((items rs).map (Item.shift (Text.byteLength run))).map (Item.shift n) := by
      simp [Item.shift_shift, Function.comp_def]
    have hled := led_of_piecesFrom hrs
    refine ⟨trimsBack rs, ?_⟩
    change Agree _ _ (Forest.ofItems registry mode (items _))
      (Forest.ofItems registry mode (items _))
    rw [ofItems_leading hled, ofItems_leading hled, hitems]
    exact Forest.agree_ofItems registry mode n _ _ _

end Markup

end TemplateEngine
