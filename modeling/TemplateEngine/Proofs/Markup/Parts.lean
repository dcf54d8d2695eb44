import TemplateEngine.Proofs.Expr.Consumes
import TemplateEngine.Proofs.Markup.Embedding
import TemplateEngine.Proofs.Markup.Moving

/-!
# Templates in parts

A template can be written as a row of parts, each of them a text without opening braces and a tag or
an output behind it (`Part`).  It is read part by part (`parse_parts`).  What a tag adds to the tree
is the matter of its name and of the tokens of its head (`TagSource.feed`).
-/

namespace TemplateEngine.Markup

/-! ### Parts -/

/-- A text, and a tag or an output behind it.  The source of the construct stands between blanks
and is known by its tokens: they close their braces, and they are not the name of a verbatim block
alone. -/
structure Part where
  text : List Char
  kind : Delimiter
  source : List Char
  lexemes : List Lexeme
  notMem_text : '\x7b' ∉ text
  kind_ne : kind ≠ .comment
  lexes : Lexes source lexemes
  closes : Closes 0 lexemes
  ne_verbatim : kind = .tag → ∀ v : Verbatim, lexemes ≠ [.word (.name v.name)]

/-- A source between blanks. -/
def padded (source : List Char) : List Char := ' ' :: (source ++ [' '])

theorem padded_eq (source : List Char) : padded source = [' '] ++ source ++ [' '] := rfl

theorem lexes_padded {source : List Char} {ls : List Lexeme} (h : Lexes source ls) :
    Lexes (padded source) ls := by
  obtain ⟨ts, hts, rfl⟩ := h 0
  obtain ⟨us, hus, he⟩ := tokens_between_blanks hts 0
  exact he ▸ .of_tokens hus

theorem ofChars_padded (source : List Char) :
    Inner.ofChars (padded source) = ⟨false, padded source, false⟩ := by
  have hright : (padded source).getLast? ≠ some '-' := getLast?_source [' '] source
  have hleft : (padded source).head? ≠ some '-' := by simp [padded]
  simp [Inner.ofChars, hleft, hright]

/-- The item of a run of characters; none of an empty run. -/
def textItems : List Char → List Item
  | [] => []
  | c :: cs => [.text (c :: cs)]

namespace Part

/-- The part as it is written. -/
def chars (p : Part) : List Char := p.text ++ p.kind.wrap (padded p.source)

/-- Where the construct of a part begins that begins at an offset. -/
def start (p : Part) (offset : Nat) : Nat := offset + Text.byteLength p.text

/-- The items of a part that begins at an offset. -/
def items (p : Part) (offset : Nat) : List Item :=
  textItems p.text ++ [p.kind.item ⟨padded p.source, p.start offset, p.start offset + 2⟩]

/-- The pieces of a part that begins at an offset. -/
def pieces (p : Part) (offset : Nat) : List Piece :=
  textPieces offset p.text ++ [⟨p.kind.openKind, p.kind.opener, p.start offset⟩,
    ⟨.source, padded p.source, p.start offset + 2⟩,
    ⟨p.kind.closeKind, p.kind.closer,
      p.start offset + 2 + Text.byteLength (padded p.source)⟩]

variable (p : Part) (offset : Nat)

/-- The scan for the end of the construct goes on to its closing delimiter. -/
theorem passesOver : PassesOver p.kind.closer none 0 (padded p.source) := by
  obtain ⟨ts, hts, hl⟩ := p.lexes 0
  have hfind := findClose?_source p.kind_ne (w := [' ']) (inert_of_all (by decide)) hts
    (hl ▸ p.closes)
  rw [← padded_eq] at hfind
  obtain ⟨body, rest, he, hlen, hp⟩ := passesOver_of_findClose? hfind
  rw [List.append_assoc] at he
  obtain ⟨rfl, -⟩ := List.append_inj he hlen.symm
  exact hp

/-- The construct is read from its own characters. -/
theorem isOwn : IsOwn p.kind offset (p.kind.wrap (padded p.source))
    (delimited p.kind offset (padded p.source)) := by
  refine ⟨⟨_, List.append_assoc ..⟩, Delimiter.length_wrap _ _, fun rest => ?_⟩
  have hpasses := p.passesOver
  have hverbatim := p.ne_verbatim
  cases hk : p.kind with
  | comment => exact absurd hk p.kind_ne
  | output =>
    rw [hk] at hpasses
    rw [readConstruct, readInner_wrap hpasses]
    rfl
  | tag =>
    rw [hk] at hpasses
    have hnone := ofSource?_of_lexes (lexes_padded p.lexes) (hverbatim hk)
    rw [readConstruct_tag hpasses, ofChars_padded, hnone]

/-- The part is cut into its pieces, whatever stands behind it. -/
theorem cut : Cut offset p.chars (p.pieces offset) := by
  have hown := p.isOwn (p.start offset)
  have hopens : textRun (p.kind.wrap (padded p.source)) = 0 := by
    have hkind := p.kind_ne
    cases hk : p.kind with
    | comment => exact absurd hk hkind
    | tag | output => rfl
  have hlast : p.text.getLast? ≠ some '\x7b' := fun h => p.notMem_text (List.mem_of_getLast? h)
  have hrun : textRun (p.text ++ p.kind.wrap (padded p.source)) = p.text.length := by
    rw [textRun_append_of_plain (plain_of_notMem p.notMem_text) hlast, hopens, Nat.add_zero]
  have hcut := hown.cut_run hrun
  simp only [delimited, ofChars_padded] at hcut
  exact hcut

/-- Behind a text that keeps its white space, the pieces add the items. -/
theorem foldl_pieces (t : Trimming) (ht : t.stripNext = false) :
    ((p.pieces offset).foldl Trimming.step t).items = (p.items offset).reverse ++ t.items ∧
      ((p.pieces offset).foldl Trimming.step t).stripNext = false := by
  have hkind := p.kind_ne
  have htext : ∀ cs, (textPieces offset cs).foldl Trimming.step t =
      { t with items := (textItems cs).reverse ++ t.items } := by
    intro cs
    cases cs with
    | nil => rfl
    | cons c cs => simp [textPieces, textItems, Trimming.step, ht]
  rw [pieces, items, List.foldl_append, htext]
  cases hk : p.kind with
  | comment => exact absurd hk hkind
  | tag | output =>
    simp [Trimming.step, Delimiter.openKind, Delimiter.closeKind, Delimiter.item]

end Part

/-! ### Rows of parts -/

/-- The items of a row of parts that begins at an offset. -/
def rowItems (offset : Nat) : List Part → List Item
  | [] => []
  | p :: parts => p.items offset ++ rowItems (offset + Text.byteLength p.chars) parts

/-- A row of parts is cut part by part. -/
theorem exists_pieces (parts : List Part) (offset : Nat) :
    ∃ ps, piecesFrom offset (parts.flatMap Part.chars) = .ok ps ∧
      ∀ t : Trimming, t.stripNext = false →
        (ps.foldl Trimming.step t).items = (rowItems offset parts).reverse ++ t.items := by
  induction parts generalizing offset with
  | nil => exact ⟨[], by simp [piecesFrom], fun t _ => rfl⟩
  | cons p parts ih =>
    obtain ⟨ps, hps, hitems⟩ := ih (offset + Text.byteLength p.chars)
    refine ⟨p.pieces offset ++ ps, ?_, fun t ht => ?_⟩
    · rw [List.flatMap_cons, p.cut, hps]
      rfl
    · obtain ⟨hpieces, hstrip⟩ := p.foldl_pieces offset t ht
      rw [List.foldl_append, hitems _ hstrip, hpieces, rowItems, List.reverse_append,
        List.append_assoc]

/-- A row of parts is read part by part. -/
theorem parse_parts (registry : Tag.Registry) (mode : Mode) (parts : List Part) :
    parse registry mode (String.ofList (parts.flatMap Part.chars)) =
      Forest.ofItems registry mode (rowItems 0 parts) := by
  obtain ⟨ps, hps, hitems⟩ := exists_pieces parts 0
  rw [parse, pieces, String.toList_ofList, hps]
  change Forest.ofItems registry mode (items ps) = _
  rw [items, hitems _ rfl, List.append_nil, List.reverse_reverse]

/-! ### What a part adds to the tree -/

/-- The forest with the text of a row of characters at its end, if there are any. -/
def Forest.pushText (f : Forest) (cs : List Char) : Forest := (textNodes cs).foldl Forest.push f

/-- Nodes go to the body of the innermost block while it has no clauses. -/
theorem Forest.foldl_push (root : List Node) (stack : List Block) (head : Head)
    (children nodes : List Node) :
    nodes.foldl push ⟨root, ⟨head, children, [], none⟩ :: stack⟩ =
      ⟨root, ⟨head, children ++ nodes, [], none⟩ :: stack⟩ := by
  induction nodes generalizing children with
  | nil => simp
  | cons node nodes ih => exact (ih (children ++ [node])).trans (by simp)

/-- A block with these nodes in its body is closed by its name. -/
theorem Forest.close_foldl_push (root : List Node) (stack : List Block) (head : Head)
    (nodes : List Node) (closer : String) (offset : Nat) :
    (nodes.foldl push ⟨root, .ofHead head :: stack⟩).close closer head.name [] offset =
      .ok (push ⟨root, stack⟩ (.tag head nodes [])) := by
  rw [Block.ofHead, foldl_push, close]
  simp [Block.node]

/-- Behind this forest the part is read, and the next forest depends on where its construct
begins. -/
def Part.Adds (registry : Tag.Registry) (mode : Mode) (p : Part) (f : Forest) (g : Nat → Forest) :
    Prop :=
  ∀ offset, (p.items offset).foldlM (Forest.feed registry mode) f = .ok (g (p.start offset))

section
variable {registry : Tag.Registry} {mode : Mode} {p : Part} {f : Forest} {g : Nat → Forest}

theorem Part.Adds.foldlM_rowItems (h : p.Adds registry mode f g) (offset : Nat)
    (parts : List Part) :
    (rowItems offset (p :: parts)).foldlM (Forest.feed registry mode) f =
      (rowItems (offset + Text.byteLength p.chars) parts).foldlM (Forest.feed registry mode)
        (g (p.start offset)) := by
  rw [rowItems, List.foldlM_append, h]
  rfl

/-- The text of a part is a node in front of what its construct adds. -/
theorem Part.adds_of_feed (h : ∀ offset base,
    Forest.feed registry mode (f.pushText p.text) (p.kind.item ⟨padded p.source, offset, base⟩) =
      .ok (g offset)) : p.Adds registry mode f g := by
  intro offset
  have htext : ∀ cs, (textItems cs).foldlM (Forest.feed registry mode) f =
      .ok (f.pushText cs) := by
    intro cs
    cases cs <;> rfl
  rw [items, List.foldlM_append, htext]
  change List.foldlM (Forest.feed registry mode) (f.pushText p.text) [_] = _
  rw [foldlM_cons_ok (h _ _)]
  rfl

/-- A source whose tokens spell an expression is an output of it. -/
theorem Part.adds_output {x : Expr} (hk : p.kind = .output) (hx : Spells mode p.lexemes x) :
    p.Adds registry mode f fun offset => (f.pushText p.text).push (.output x offset) := by
  refine adds_of_feed fun offset base => ?_
  obtain ⟨ts, hts, hl⟩ := lexes_padded p.lexes base
  rw [← hl] at hx
  have hexpr : Expr.parse mode (String.ofList (padded p.source)) base = .ok x :=
    Expr.parse_eq_ok_iff.mpr ⟨ts, by simpa using hts, hx⟩
  rw [hk]
  simp only [Delimiter.item, Forest.feed, Forest.readOutput, trim_isEmpty_of_parse hexpr, hexpr]
  rfl

end

/-! ### Tags -/

section
variable {registry : Tag.Registry} {mode : Mode}

/-- The name is one word for the reader of tags: it begins no verbatim block, and no `else if`. -/
def IsTagWord (name : String) : Prop := IsIdentifier name ∧ name ∉ ["else", "raw", "comment"]

instance (name : String) : Decidable (IsTagWord name) := inferInstanceAs (Decidable (_ ∧ _))

theorem IsTagWord.ne_verbatim {name : String} (h : IsTagWord name) (v : Verbatim) :
    name ≠ v.name := by
  rintro rfl
  cases v <;> exact absurd h.2 (by decide)

/-- A tag as it is written: its name, and behind white space its head, of which the tokens are
known. -/
structure TagSource where
  name : String
  tail : List Char
  lexemes : List Lexeme
  word : IsTagWord name
  blank : ∀ c ∈ tail.head?, Text.isBlank c = true
  lexes : Lexes tail lexemes
  closes : Closes 0 lexemes

/-- In the dialect the name stands for a tag of this kind, which needs no block around it. -/
structure StandsFor (registry : Tag.Registry) (mode : Mode) (name : String) (d : Tag.Descriptor)
    (start : Tag.Start) (role : Tag.Role) (behavior : Tag.Behavior) : Prop where
  get? : registry.get? name mode = some d
  start : d.start = start
  inside : d.inside = []
  role : d.role = role
  behavior : d.behavior = behavior

/-- Tokens take the head of a tag up to its end. -/
theorem readArgs_of_consumes {start : Tag.Start} {head : List Char} {ls : List Lexeme}
    {args : Tag.Args} (hraw : start ≠ .raw) (hnone : start ≠ .none) (h : Lexes head ls)
    (hne : ls ≠ [])
    (hargs : ∀ n, TemplateEngine.Parse.Consumes (Parse.args mode (n + 1) start) ls [] args)
    (name : String) (base : Nat) : readArgs mode start name head base = .ok args := by
  have hhead : head.isEmpty = false := by
    refine Bool.eq_false_iff.mpr fun he => ?_
    rw [List.isEmpty_iff.mp he] at h
    exact hne (h.unique .nil)
  obtain ⟨ts, hts, rfl⟩ := h base
  obtain ⟨t, hp, ht⟩ := hargs head.length
    ⟨ts, base + Text.byteLength (String.ofList head).toList⟩ (List.append_nil _).symm
  rw [readArgs.eq_3 mode start name head base hraw hnone, if_neg (by simp [hhead])]
  refine TemplateEngine.Parse.whole_eq_ok_iff.mpr ⟨ts, t, by simpa using hts, hp, ?_⟩
  rw [t.peek_lexeme, ht]
  rfl

namespace TagSource

/-- A tag with a head. -/
def ofHead (name : String) (hname : IsTagWord name) {head : List Char} {ls : List Lexeme}
    (h : Lexes head ls) (hc : Closes 0 ls) : TagSource where
  name := name
  tail := ' ' :: head
  lexemes := ls
  word := hname
  blank := by simp; decide
  lexes := .blank (by decide) h
  closes := hc

/-- A tag that is a name only. -/
def ofName (name : String) (hname : IsTagWord name) : TagSource where
  name := name
  tail := []
  lexemes := []
  word := hname
  blank := nofun
  lexes := .nil
  closes := closes_nil

variable (s : TagSource)

/-- What stands between the delimiters and the blanks. -/
def text : List Char := s.name.toList ++ s.tail

/-- A text and the tag behind it. -/
def part (run : List Char) (hrun : '\x7b' ∉ run) : Part where
  text := run
  kind := .tag
  source := s.text
  lexemes := .word (.name s.name) :: s.lexemes
  notMem_text := hrun
  kind_ne := by decide
  lexes := .name_append s.word.1
    (fun c hc => Text.isNamePart_of_isBlank (s.blank c hc)) s.lexes
  closes := s.closes.cons (unbraced_name _)
  ne_verbatim := fun _ v h => s.word.ne_verbatim v (by simpa using (List.cons.inj h).1)

@[simp] theorem text_ofHead {name : String} (hname : IsTagWord name) {head : List Char}
    {ls : List Lexeme} (h : Lexes head ls) (hc : Closes 0 ls) :
    (ofHead name hname h hc).text = name.toList ++ ' ' :: head := rfl

@[simp] theorem text_ofName {name : String} (hname : IsTagWord name) :
    (ofName name hname).text = name.toList :=
  List.append_nil _

@[simp] theorem chars_part (run : List Char) (hrun : '\x7b' ∉ run) :
    (s.part run hrun).chars = run ++ '\x7b' :: '%' :: ' ' :: (s.text ++ [' ', '%', '\x7d']) := by
  simp [Part.chars, part, padded, Delimiter.wrap, Delimiter.opener, Delimiter.closer]

/-- The name of the tag and its head. -/
theorem exists_tagWords (mode : Mode) (offset base : Nat) :
    ∃ restOffset, Forest.tagWords mode ⟨padded s.text, offset, base⟩ =
      ⟨s.name.toList, Text.trim (s.tail ++ [' ']), restOffset⟩ := by
  obtain ⟨c, cs, hcs, hc, hpart⟩ := s.word.1
  have hblank : ∀ c ∈ s.name.toList, Text.isBlank c = false := by
    rw [hcs, List.forall_mem_cons]
    exact ⟨not_isBlank_of_isNamePart (isNamePart_of_isNameStart hc),
      fun d hd => not_isBlank_of_isNamePart (hpart d hd)⟩
  have helse : s.name.toList ≠ ['e', 'l', 's', 'e'] := by
    intro h
    have hname : s.name = "else" := String.toList_inj.mp h
    exact s.word.2 (by simp [hname])
  have htail : ∀ c ∈ (s.tail ++ [' ']).head?, Text.isBlank c = true := by
    have hb := s.blank
    cases ht : s.tail with
    | nil =>
      simp
      decide
    | cons c cs => simpa [ht] using hb
  rw [padded, text, List.append_assoc]
  exact tagWords_append (by simp [hcs]) hblank htail helse mode offset base

/-- The tokens of the head of the tag. -/
theorem lexes_head : Lexes (Text.trim (s.tail ++ [' '])) s.lexemes := by
  obtain ⟨ts, hts, he⟩ := s.lexes 0
  rw [← TokenStream.tokens_append_blank Text.allBlank_space] at hts
  exact (he ▸ .of_tokens hts : Lexes (s.tail ++ [' ']) s.lexemes).trim

theorem isEmpty_name : s.name.toList.isEmpty = false := by
  obtain ⟨c, cs, hcs, -⟩ := s.word.1
  simp [hcs]

section
variable {d : Tag.Descriptor} {start : Tag.Start} {role : Tag.Role} {behavior : Tag.Behavior}
  {args : Tag.Args} {f : Forest} {run : List Char} (hrun : '\x7b' ∉ run)

/-- A tag with a head is read in the form that its descriptor asks for. -/
theorem feed (hd : StandsFor registry mode s.name d start role behavior)
    (hstart : start ≠ .raw ∧ start ≠ .none) (hne : s.lexemes ≠ [])
    (hargs : ∀ k, TemplateEngine.Parse.Consumes (Parse.args mode (k + 1) start) s.lexemes [] args)
    (offset base : Nat) :
    Forest.feed registry mode f (.tag ⟨padded s.text, offset, base⟩) =
      f.addTag ⟨s.name, d, args, offset⟩ := by
  obtain ⟨restOffset, hwords⟩ := s.exists_tagWords mode offset base
  have hread := readArgs_of_consumes hstart.1 hstart.2 s.lexes_head hne hargs s.name restOffset
  simp [Forest.feed, Forest.readTag, hwords, s.isEmpty_name, hd.get?, Forest.encloses, hd.inside,
    hd.start, hread, bind, Except.bind]

theorem adds_standalone (hd : StandsFor registry mode s.name d start .standalone behavior)
    (hstart : start ≠ .raw ∧ start ≠ .none) (hne : s.lexemes ≠ [])
    (hargs : ∀ k, TemplateEngine.Parse.Consumes (Parse.args mode (k + 1) start) s.lexemes []
      args) :
    (s.part run hrun).Adds registry mode f fun offset =>
      (f.pushText run).push (.tag ⟨s.name, d, args, offset⟩ [] []) := by
  refine Part.adds_of_feed fun offset base => (s.feed hd hstart hne hargs offset base).trans ?_
  simp only [Forest.addTag, hd.role]
  rfl

/-- An opening tag begins a block. -/
theorem adds_opener (hd : StandsFor registry mode s.name d start .opener behavior)
    (hstart : start ≠ .raw ∧ start ≠ .none) (hne : s.lexemes ≠ [])
    (hargs : ∀ k, TemplateEngine.Parse.Consumes (Parse.args mode (k + 1) start) s.lexemes []
      args) :
    (s.part run hrun).Adds registry mode f fun offset =>
      { f.pushText run with
        stack := .ofHead ⟨s.name, d, args, offset⟩ :: (f.pushText run).stack } := by
  refine Part.adds_of_feed fun offset base => (s.feed hd hstart hne hargs offset base).trans ?_
  simp only [Forest.addTag, hd.role]
  rfl

/-- A closing tag closes the innermost block. -/
theorem adds_closer {opener : String} {f' : Forest} (hd : registry.get? s.name mode = none)
    (hcloses : Tag.closes? s.name = some opener) (htail : s.tail = [])
    (hclose : ∀ offset, (f.pushText run).close s.name opener [] offset = .ok f') :
    (s.part run hrun).Adds registry mode f fun _ => f' := by
  refine Part.adds_of_feed fun offset base => Eq.trans ?_ (hclose offset)
  change Forest.feed registry mode (f.pushText run) (.tag ⟨padded s.text, offset, base⟩) = _
  obtain ⟨restOffset, hwords⟩ := s.exists_tagWords mode offset base
  have hblank : Text.trim [' '] = [] := by decide
  rw [htail, List.nil_append, hblank] at hwords
  simp [Forest.feed, Forest.readTag, hwords, s.isEmpty_name, hd, hcloses]

end

end TagSource

end

end TemplateEngine.Markup
