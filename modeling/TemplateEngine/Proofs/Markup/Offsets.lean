import TemplateEngine.Proofs.Markup.Moving
import TemplateEngine.Proofs.Markup.Sources

/-!
# Offsets of templates

Offsets are places in the source (`parse_offsets`).  A template fails between two of its characters
or at one of its ends.  An output of its tree is at an opening delimiter of the source, and so are a
tag and a clause; they come in the order of the source.  A text in front of the template moves all
of them by its length.
-/

namespace TemplateEngine.Markup

/-! ### Faults -/

/-- The words of a tag that are read as its head are a part of its source. -/
theorem TagWords.exists_rest {mode : Mode} {cs : List Char} {base : Nat} {w : Words}
    (h : TagWords mode cs base w) :
    ∃ lead trail, cs = lead ++ w.rest ++ trail ∧ w.restOffset = base + Text.byteLength lead := by
  cases h with
  | plain hw _ =>
    obtain ⟨lead, gap, trail, -, -, -, he, ho⟩ := Words.exists_split hw
    exact ⟨_, trail, he, ho⟩
  | @elseIf w v _ hw _ hv _ =>
    obtain ⟨lead, gap, trail, -, -, -, rfl, ho⟩ := Words.exists_split hw
    obtain ⟨lead', gap', trail', -, -, -, hrest, ho'⟩ := Words.exists_split hv
    refine ⟨lead ++ w.first ++ gap ++ (lead' ++ v.first ++ gap'), trail' ++ trail, ?_, ?_⟩
    · rw [hrest]
      simp only [List.append_assoc]
    · rw [ho', ho, Nat.add_assoc, ← Text.byteLength_append]

section
variable {registry : Tag.Registry} {mode : Mode} {F : Error → Prop} {P : Nat → Prop}
  {offset : Nat} {cs before raw after : List Char} {d : Delimiter} {source : Source}

/-- An opening delimiter is at a place of the text. -/
theorem Source.StandsIn.place (h : source.StandsIn offset cs d before raw after)
    (hP : Carried (fun o _ => P o) cs offset offset) : P source.offset := by
  rw [h.source_eq]
  exact hP before (d.wrap raw ++ after) (by rw [h.split, List.append_assoc])

/-- The places of a source are places of the text. -/
theorem Source.StandsIn.carried (h : source.StandsIn offset cs d before raw after)
    (hP : Carried (fun o _ => P o) cs offset offset) :
    Carried (fun o _ => P o) source.text source.base source.base := by
  obtain ⟨lead, trail, he, ho⟩ := h.slice
  rw [he] at hP
  rw [ho]
  exact hP.part

/-- The places of the head of a tag are places of its source. -/
theorem carried_tagWords (mode : Mode)
    (hP : Carried (fun o _ => P o) source.text source.base source.base) :
    let words := Forest.tagWords mode source
    Carried (fun o _ => P o) words.rest words.restOffset words.restOffset := by
  intro words
  have hwords : TagWords mode source.text source.base words := tagWords_iff.mpr rfl
  obtain ⟨lead, trail, he, ho⟩ := hwords.exists_rest
  rw [he] at hP
  rw [ho]
  exact hP.part

/-- Items are at places of the template. -/
theorem within_of_mem_items (hF : ∀ f o, P o → F (.parse f o)) {source : String}
    (hP : Carried (fun o _ => P o) source.toList 0 0) {ps : List Piece}
    (h : pieces source = .ok ps) : ∀ item ∈ items ps, item.Within registry mode F P := by
  have htokens : ∀ {cs : List Char} {base : Nat}, Carried (fun o _ => P o) cs base base →
      Tokenizes F P cs base := fun h => sameTokens_of_carried (fun f o _ => hF f o) h
  intro item hi
  cases item with
  | text cs => trivial
  | output s =>
    obtain ⟨before, raw, after, hs⟩ := exists_standsIn h hi rfl
    exact ⟨hs.place hP, htokens (hs.carried hP)⟩
  | tag s =>
    obtain ⟨before, raw, after, hs⟩ := exists_standsIn h hi rfl
    have hhead := carried_tagWords mode (hs.carried hP)
    exact ⟨hs.place hP, fun _ => ⟨hhead.start, htokens hhead⟩⟩

end

/-- The offset lies between two characters of the text, or at one of its ends. -/
def IsPlace (cs : List Char) (offset : Nat) : Prop :=
  ∃ before after, cs = before ++ after ∧ offset = Text.byteLength before

/-- A template fails at a place of its source. -/
theorem exists_place_of_parse {registry : Tag.Registry} {mode : Mode} {source : String} {e : Error}
    (h : parse registry mode source = .error e) :
    ∃ fault offset, e = .parse fault offset ∧ IsPlace source.toList offset := by
  have hplaces : Carried (fun o _ => IsPlace source.toList o) source.toList 0 0 :=
    fun before after he => ⟨before, after, he, Nat.zero_add _⟩
  have hfaults : ∀ f o, IsPlace source.toList o →
      ∃ fault offset, Error.parse f o = .parse fault offset ∧ IsPlace source.toList offset :=
    fun f o ho => ⟨f, o, rfl, ho⟩
  have houtcome : Outcome
      (fun e => ∃ fault offset, e = .parse fault offset ∧ IsPlace source.toList offset)
      (fun _ => True) (parse registry mode source) :=
    outcome_parse (fun f o _ => hfaults f o) hplaces fun ps hps =>
      within_of_mem_items hfaults hplaces hps
  exact houtcome.of_error h

/-! ### Trees -/

mutual

/-- The outputs, tags and clauses of a node, in the order of the source. -/
def Node.constructs : Node → List Mark
  | .text _ => []
  | .output e offset => [.output e offset]
  | .tag h children clauses => .head h :: (constructsOf children ++ clauseConstructs clauses)

/-- The outputs, tags and clauses of a row of nodes, in the order of the source. -/
def constructsOf : List Node → List Mark
  | [] => []
  | node :: nodes => node.constructs ++ constructsOf nodes

/-- The clauses of a block, and the outputs, tags and clauses in them, in the order of the
source. -/
def clauseConstructs : List (Head × List Node) → List Mark
  | [] => []
  | (h, nodes) :: more => .head h :: (constructsOf nodes ++ clauseConstructs more)

end

/-- The offset of an output or a head. -/
def Mark.offset? : Mark → Option Nat
  | .text _ => none
  | .output _ offset => some offset
  | .head h => some h.offset
  | .closer _ => none

/-- The output or the head is what a construct of the text is read as, and its offset is that of the
opening delimiter. -/
def Mark.StandsIn (registry : Tag.Registry) (mode : Mode) (cs : List Char) (m : Mark) : Prop :=
  ∃ (d : Delimiter) (before raw after : List Char), d ≠ .comment ∧
    cs = before ++ d.wrap raw ++ after ∧ m.offset? = some (Text.byteLength before) ∧
    ReadsAs registry mode (d.item (.ofRaw raw (Text.byteLength before))) m

mutual

/-- Texts and closing tags are the other marks of a well-nested node. -/
theorem constructs_eq {bodies : List Head} : ∀ {node : Node}, node.WellNested bodies →
    node.constructs = node.marks.filter fun m => m.offset?.isSome
  | .text _, _ => rfl
  | .output _ _, _ => rfl
  | .tag h children clauses, ⟨_, hw⟩ => by
    cases hr : h.descriptor.role with
    | standalone =>
      simp only [hr] at hw
      obtain ⟨rfl, rfl⟩ := hw
      simp [Node.constructs, Node.marks, hr, constructsOf, clauseConstructs, Mark.offset?]
    | clause => simp [hr] at hw
    | opener =>
      simp only [hr] at hw
      simp [Node.constructs, Node.marks, hr, Mark.offset?, constructsOf_eq hw.1,
        clauseConstructs_eq hw.2]

theorem constructsOf_eq {bodies : List Head} : ∀ {nodes : List Node}, AllWellNested bodies nodes →
    constructsOf nodes = (marksOf nodes).filter fun m => m.offset?.isSome
  | [], _ => rfl
  | node :: nodes, ⟨hn, hs⟩ => by
    rw [constructsOf, marksOf, List.filter_append, constructs_eq hn, constructsOf_eq hs]

theorem clauseConstructs_eq {bodies : List Head} {block : Head} :
    ∀ {clauses : List (Head × List Node)}, ClausesWellNested bodies block clauses →
      clauseConstructs clauses = (clauseMarks clauses).filter fun m => m.offset?.isSome
  | [], _ => rfl
  | (h, nodes) :: more, ⟨_, _, hn, hs⟩ => by
    simp [clauseConstructs, clauseMarks, Mark.offset?, constructsOf_eq hn, clauseConstructs_eq hs]

end

/-- A mark with an offset is read of a tag or an output. -/
theorem ReadsAs.exists_construct {registry : Tag.Registry} {mode : Mode} {item : Item} {m : Mark}
    (h : ReadsAs registry mode item m) (ho : m.offset?.isSome = true) :
    ∃ d s, item = d.item s ∧ item.construct? = some (d, s) ∧ m.offset? = some s.offset := by
  cases h with
  | text | closer => cases ho
  | @output source => exact ⟨.output, source, rfl, rfl, rfl⟩
  | @head source => exact ⟨.tag, source, rfl, rfl, rfl⟩

/-- The offsets of marks are those of the tags and outputs that are read as them. -/
theorem offsets_sublist {registry : Tag.Registry} {mode : Mode} {items : List Item}
    {marks : List Mark} (h : List.Forall₂ (ReadsAs registry mode) items marks) :
    (marks.filterMap Mark.offset?).Sublist
      ((items.filterMap Item.construct?).map fun x => x.2.offset) := by
  induction h with
  | nil => exact .slnil
  | cons hm _ ih =>
    cases hm with
    | text cs => exact ih
    | output he => exact ih.cons_cons _
    | head hw hd ha => exact ih.cons_cons _
    | closer hw hn hr => exact ih.cons _

/-- The outputs, tags and clauses of a template are constructs of its source, in order. -/
theorem constructs_of_parse {registry : Tag.Registry} (hr : registry.Reachable)
    (hc : registry.FreeClauses) {mode : Mode} {source : String} {nodes : List Node}
    (h : parse registry mode source = .ok nodes) :
    (∀ m ∈ constructsOf nodes, m.StandsIn registry mode source.toList) ∧
      ((constructsOf nodes).filterMap Mark.offset?).Pairwise (· < ·) := by
  obtain ⟨ps, hps, hnodes⟩ := bind_eq_ok_iff.mp h
  obtain ⟨hwell, hreads⟩ := (Forest.ofItems_eq_ok_iff hr hc _ _).mp hnodes
  obtain ⟨hstands, hordered⟩ := (layout_of_piecesFrom hps).constructs
  rw [constructsOf_eq hwell]
  constructor
  · intro m hm
    obtain ⟨hm, ho⟩ := List.mem_filter.mp hm
    obtain ⟨item, hi, hread⟩ := hreads.exists_of_mem hm
    obtain ⟨d, s, rfl, hconstruct, hoffset⟩ := hread.exists_construct ho
    obtain ⟨before, raw, after, hs⟩ :=
      hstands (d, s) (List.mem_filterMap.mpr ⟨_, hi, hconstruct⟩)
    have hsource := hs.source_eq
    rw [Nat.zero_add] at hsource
    subst hsource
    exact ⟨d, before, raw, after, hs.kind, hs.split, hoffset, hread⟩
  · have hoffsets := (offsets_sublist hreads).trans ((List.filter_sublist.filterMap _).map _)
    have hmarks := (List.pairwise_map.mpr hordered).sublist hoffsets
    exact hmarks.sublist (List.filter_sublist.filterMap _)

/-- **Offsets.**  A template fails at a place of its source.  The outputs, tags and clauses of its
tree are at opening delimiters of the source, in order.  Behind a text without opening braces all of
them, or the fault, are as much further on as the text is long. -/
theorem parse_offsets (mode : Mode) (source : String) :
    (∀ e, parse .standard mode source = .error e →
      ∃ fault offset, e = .parse fault offset ∧ IsPlace source.toList offset) ∧
    (∀ nodes, parse .standard mode source = .ok nodes →
      (∀ m ∈ constructsOf nodes, m.StandsIn .standard mode source.toList) ∧
        ((constructsOf nodes).filterMap Mark.offset?).Pairwise (· < ·)) ∧
    ∀ p : String, '\x7b' ∉ p.toList →
      let n := Text.byteLength p.toList
      let run := source.toList.take (textRun source.toList)
      ∃ right : Bool, Agree (Error.Moved n)
        (Behind n (textNodes (strip false right run))
          (textNodes (strip false right (p.toList ++ run))))
        (parse .standard mode source) (parse .standard mode (p ++ source)) :=
  ⟨fun _ h => exists_place_of_parse h,
    fun _ h => constructs_of_parse .standard Tag.Registry.freeClauses_standard h,
    fun _ hp => agree_parse_append .standard mode hp source⟩

/-- A block and an output behind a text, and an output without an operand. -/
theorem parse_offsets_umlaut :
    let source := "\u00fc\x7b% if a %\x7d\x7b\x7b- b \x7d\x7d\x7b% else if c %\x7d\x7b% endif %\x7d"
    let faulty := "\u00fc\x7b\x7b 1 + \x7d\x7d"
    (∃ nodes, parse .standard .python source = .ok nodes ∧
      (∀ m ∈ constructsOf nodes, m.StandsIn .standard .python source.toList) ∧
        ((constructsOf nodes).filterMap Mark.offset?).Pairwise (· < ·)) ∧
    (∃ fault offset, parse .standard .python faulty = .error (.parse fault offset) ∧
      IsPlace faulty.toList offset) ∧
    '\x7b' ∉ "\u00e9 ".toList ∧ ∃ right : Bool, Agree (Error.Moved 3)
      (Behind 3 (textNodes (strip false right ['\u00fc']))
        (textNodes (strip false right ("\u00e9 ".toList ++ ['\u00fc']))))
      (parse .standard .python source) (parse .standard .python ("\u00e9 " ++ source)) := by
  intro source faulty
  obtain ⟨-, htree, hbehind⟩ := parse_offsets .python source
  obtain ⟨hfault, -, -⟩ := parse_offsets .python faulty
  have hok : (parse .standard .python source).isOk = true := by decide +kernel
  have hfail : (parse .standard .python faulty).isOk = false := by decide +kernel
  have hp : '\x7b' ∉ "\u00e9 ".toList := by decide
  have hlength : Text.byteLength "\u00e9 ".toList = 3 := by decide
  have hrun : source.toList.take (textRun source.toList) = ['\u00fc'] := by decide +kernel
  have hmoved := hbehind _ hp
  dsimp only at hmoved
  rw [hlength, hrun] at hmoved
  refine ⟨?_, ?_, hp, hmoved⟩
  · obtain ⟨nodes, hnodes⟩ := exists_of_isOk hok
    exact ⟨nodes, hnodes, htree nodes hnodes⟩
  · cases he : parse .standard .python faulty with
    | ok nodes => simp [he, Except.isOk, Except.toBool] at hfail
    | error e =>
      obtain ⟨fault, offset, rfl, hplace⟩ := hfault e he
      exact ⟨fault, offset, rfl, hplace⟩

end TemplateEngine.Markup
