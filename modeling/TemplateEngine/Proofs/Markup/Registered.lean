import TemplateEngine.Proofs.Markup.Embedding
import TemplateEngine.Proofs.Markup.Ends
import TemplateEngine.Proofs.Tag.History

/-!
# Registered tags in templates

A name that a registration accepts is one word in the source of a tag: no character of it ends the
tag, begins a string or is white space.  So a tag that asks for no head, no body and no block around
it is read under each of its names as soon as it is registered (`parse_registered`).  The names
`raw` and `comment` are the exception.  The registry accepts them, but tags of these names begin
verbatim blocks and are not looked up.

The names of a registration are read from one text, where commas stand between them.  Names that a
tag can have are read back from the text that lists them (`splitNames_intercalate`).
-/

namespace TemplateEngine.Markup

/-! ### Names as sources -/

/-- The characters of a tag name are characters of names. -/
theorem isNamePart_of_isTagName {name : String} (h : Tag.isTagName name = true) :
    ∀ c ∈ name.toList, Text.isNamePart c = true := by
  unfold Tag.isTagName at h
  split at h
  · cases h
  · next c cs he =>
    rw [Bool.and_eq_true, List.all_eq_true] at h
    rw [he]
    exact List.forall_mem_cons.mpr ⟨isNamePart_of_isNameStart h.1, h.2⟩

/-- Names are read back from a list of them. -/
theorem splitNames_intercalate {ns : List String} (h : ∀ n ∈ ns, Tag.isTagName n = true) :
    Tag.splitNames (",".intercalate ns) = ns := by
  have hname : ∀ {n : String}, Tag.isTagName n = true → Tag.splitNames n = [n] := by
    intro n hn
    have hparts := isNamePart_of_isTagName hn
    have hcomma : ',' ∉ n.toList := fun hmem => absurd (hparts _ hmem) (by decide)
    have htrim : Text.trim n.toList = n.toList :=
      Text.trim_eq_self fun c hc => not_isBlank_of_isNamePart (hparts c hc)
    have hne : n ≠ "" := by
      rintro rfl
      exact absurd hn (by decide)
    rw [Tag.splitNames_of_not_mem hcomma, htrim, if_neg (by simpa using hne), String.ofList_toList]
  induction ns with
  | nil =>
    have hcomma : ',' ∉ "".toList := by simp
    exact (Tag.splitNames_of_not_mem hcomma).trans (by decide)
  | cons n ns ih =>
    rw [List.forall_mem_cons] at h
    cases ns with
    | nil => exact hname h.1
    | cons m ns =>
      rw [String.intercalate_cons_cons, Tag.splitNames_append, hname h.1, ih h.2]
      rfl

/-- A tag can be registered again under the names that it lists. -/
theorem register_names {r r' : Tag.Registry} {names : String} {mode : Mode} {d d' : Tag.Descriptor}
    (h : r.register names mode d = .ok (r', d')) :
    r.register (",".intercalate d'.names) mode d = .ok (r', d') := by
  obtain ⟨hnone, rfl, rfl⟩ := Tag.Registry.register_eq_ok_iff.mp h
  have hsame : Tag.splitNames (",".intercalate (Tag.splitNames names)) = Tag.splitNames names :=
    splitNames_intercalate fun n hn => (Tag.Registry.admissible_of_refusal? hnone n hn).1
  exact Tag.Registry.register_eq_ok_iff.mpr ⟨by rwa [hsame], by rw [hsame], by rw [hsame]⟩

/-- The source of a tag that is a name only. -/
def nameSource (name : String) : List Char := ' ' :: (name.toList ++ [' '])

theorem isBlank_space : Text.isBlank ' ' = true := by decide

section
variable {name : String}

/-- A name is the first word of its source, and nothing follows. -/
theorem ofChars_nameSource (h : Tag.Registry.Admissible name) (offset : Nat) :
    ∃ restOffset, Words.ofChars (nameSource name) offset = ⟨name.toList, [], restOffset⟩ :=
  ofChars_append (by simpa using h.ne_empty)
    (fun c hc => not_isBlank_of_isNamePart (isNamePart_of_isTagName h.1 c hc)) (by simp; decide)
    offset

theorem trim_nameSource (h : Tag.Registry.Admissible name) :
    Text.trim (nameSource name) = name.toList := by
  have hblank : ∀ c ∈ name.toList, Text.isBlank c = false :=
    fun c hc => not_isBlank_of_isNamePart (isNamePart_of_isTagName h.1 c hc)
  have hne : name.toList ≠ [] := by simpa using h.ne_empty
  have hstart : Text.trimStart (nameSource name) = name.toList ++ [' '] := by
    obtain ⟨c, cs, hcs⟩ := List.exists_cons_of_ne_nil hne
    simp [Text.trimStart, nameSource, isBlank_space, hcs, hblank c (by simp [hcs])]
  have hend : name.toList.reverse.dropWhile Text.isBlank = name.toList.reverse :=
    Text.dropWhile_isBlank_eq_self (by simpa using hblank)
  rw [Text.trim, hstart, Text.trimEnd, Text.dropTrailing, List.reverse_append]
  simp [isBlank_space, hend]

theorem inert_nameSource (h : Tag.Registry.Admissible name) : ∀ c ∈ nameSource name, Inert c := by
  intro c hc
  rcases List.mem_cons.mp hc with rfl | hc
  · decide
  · rcases List.mem_append.mp hc with hc | hc
    · exact inert_of_isPlain (by simp [Lexeme.isPlain, isNamePart_of_isTagName h.1 c hc])
    · cases List.mem_singleton.mp hc
      decide

/-- In python too a tag of one word has that word as its name. -/
theorem tagWords_nameSource (h : Tag.Registry.Admissible name) (mode : Mode) (offset base : Nat) :
    ∃ restOffset, Forest.tagWords mode ⟨nameSource name, offset, base⟩ =
      ⟨name.toList, [], restOffset⟩ := by
  obtain ⟨restOffset, hwords⟩ := ofChars_nameSource h base
  refine ⟨restOffset, ?_⟩
  have hmore : (Words.ofChars [] restOffset).first ≠ ['i', 'f'] := by
    simp [Words.ofChars]
  simp only [Forest.tagWords, hwords]
  rw [if_neg hmore, ite_self]

/-! ### Templates -/

/-- The template with one tag that is a name only. -/
def nameTag (name : String) : String := "\x7b% " ++ name ++ " %\x7d"

theorem nameTag_eq (name : String) : nameTag name =
    String.ofList (Delimiter.tag.opener ++ nameSource name ++ Delimiter.tag.closer) := by
  rw [← String.toList_inj]
  simp [nameTag, nameSource, Delimiter.opener, Delimiter.closer]

/-- The tags of verbatim blocks are not looked up. -/
theorem parse_verbatimTag (v : Verbatim) (registry : Tag.Registry) (mode : Mode) :
    parse registry mode (nameTag v.name) = .error (.parse (.unterminatedBlock v.name) 0) := by
  have hpieces : pieces (nameTag v.name) = .error (.parse (.unterminatedBlock v.name) 0) := by
    cases v <;> decide +kernel
  rw [parse, hpieces]
  rfl

/-- A tag of any other name is looked up. -/
theorem parse_nameTag (h : Tag.Registry.Admissible name) (hraw : name ≠ "raw")
    (hcomment : name ≠ "comment") (registry : Tag.Registry) (mode : Mode) :
    parse registry mode (nameTag name) =
      Forest.readTag registry mode .empty ⟨nameSource name, 0, 2⟩ >>= Forest.finish := by
  have hd : Delimiter.tag ≠ .comment := by decide
  have hfind : findClose? Delimiter.tag.closer none 0 (nameSource name ++ Delimiter.tag.closer) =
      some (nameSource name).length := by
    rw [findClose?_append_inert hd (inert_nameSource h)]
    simp [findClose?, Delimiter.closer]
  have hverbatim : Verbatim.ofSource? (nameSource name) = none := by
    simp [Verbatim.ofSource?, trim_nameSource h, hraw, hcomment]
  have hright : (nameSource name).getLast? ≠ some '-' := by
    rw [nameSource, ← List.cons_append, List.getLast?_concat]
    decide
  rw [nameTag_eq, parse_construct hd hfind (by simp [nameSource]) hright fun _ => hverbatim]
  rfl

/-- A tag without head, body and enclosing block is read under a name that stands for it. -/
theorem readTag_nameSource (h : Tag.Registry.Admissible name) {registry : Tag.Registry}
    {mode : Mode} {d : Tag.Descriptor} (hd : registry.get? name mode = some d)
    (hrole : d.role = .standalone) (hstart : d.start = .none) (hinside : d.inside = [])
    (f : Forest) (offset base : Nat) :
    Forest.readTag registry mode f ⟨nameSource name, offset, base⟩ =
      .ok (f.push (.tag ⟨name, d, .none, offset⟩ [] [])) := by
  obtain ⟨restOffset, hwords⟩ := tagWords_nameSource h mode offset base
  have hne : name.toList.isEmpty = false := by simpa using h.ne_empty
  simp [Forest.readTag, hwords, hne, hd, Forest.encloses, hinside, hstart, readArgs, Forest.addTag,
    hrole, bind, Except.bind]

end

/-! ### Registrations -/

/-- A void tag with a behavior and nothing else. -/
def voidTag (behavior : Tag.Behavior) : Tag.Descriptor :=
  { Tag.Descriptor.ofBehavior behavior with void := true }

theorem register_voidTag (names : String)
    (h : Tag.Registry.refusal? (Tag.splitNames names) = none) (r : Tag.Registry) (mode : Mode)
    (behavior : Tag.Behavior) :
    ∃ r' d', r.register names mode (voidTag behavior) = .ok (r', d') ∧
      d'.names = Tag.splitNames names :=
  ⟨_, _, Tag.Registry.register_eq_ok_iff.mpr ⟨h, rfl, rfl⟩, rfl⟩

/-- **Registered tags are read at once.**  A void tag that takes no head, divides no block and needs
none around it is read under every name that it has just been registered with, unless the name
begins a verbatim block: that block has no end. -/
theorem parse_registered {r r' : Tag.Registry} {names : String} {mode : Mode}
    {d d' : Tag.Descriptor} (h : r.register names mode d = .ok (r', d')) (hvoid : d.void = true)
    (hstart : d.start = .none) (hparents : d.parents = []) (hinside : d.inside = []) {n : String}
    (hn : n ∈ d'.names) :
    parse r' mode ("\x7b% " ++ n ++ " %\x7d") =
      if n = "raw" ∨ n = "comment" then .error (.parse (.unterminatedBlock n) 0)
      else .ok [.tag ⟨n, d', .none, 0⟩ [] []] := by
  obtain ⟨hrefusal, rfl, rfl⟩ := Tag.Registry.register_eq_ok_iff.mp h
  have hadmissible := Tag.Registry.admissible_of_refusal? hrefusal n hn
  change parse _ mode (nameTag n) = _
  split
  · next hv =>
    rcases hv with rfl | rfl
    · exact parse_verbatimTag .raw _ mode
    · exact parse_verbatimTag .comment _ mode
  · next hv =>
    rw [not_or] at hv
    have hget := Tag.Registry.get?_insertAll r (Tag.splitNames names) n mode mode
      { d with names := Tag.splitNames names, mode, isProtected := false }
    rw [if_pos ⟨rfl, hn⟩] at hget
    have hrole : Tag.Descriptor.role
        { d with names := Tag.splitNames names, mode, isProtected := false } = .standalone := by
      simp [Tag.Descriptor.role, hparents, hvoid]
    rw [parse_nameTag hadmissible hv.1 hv.2, readTag_nameSource hadmissible hget hrole hstart
      hinside]
    rfl

/-- A tag that is registered under two names, one of them not in ASCII. -/
theorem parse_registered_umlaut :
    ∃ r' d', Tag.Registry.standard.register "count, z\u00e4hle" .python (voidTag .echo) =
        .ok (r', d') ∧
      parse r' .python "\x7b% z\u00e4hle %\x7d" =
        .ok [.tag ⟨"z\u00e4hle", d', .none, 0⟩ [] []] := by
  obtain ⟨r', d', hregister, hnames⟩ :=
    register_voidTag "count, z\u00e4hle" (by decide +kernel) .standard .python .echo
  have hmem : "z\u00e4hle" ∈ d'.names := by
    rw [hnames]
    decide +kernel
  have hparse := parse_registered hregister rfl rfl rfl rfl hmem
  rw [if_neg (by decide)] at hparse
  exact ⟨r', d', hregister, hparse⟩

/-- The registry accepts `raw` as a name, and no tag of that name can be read. -/
theorem not_parse_registered :
    ¬ ∀ (r r' : Tag.Registry) (names : String) (mode : Mode) (d d' : Tag.Descriptor) (n : String),
      r.Reachable → r.register names mode d = .ok (r', d') → d.void = true → d.start = .none →
      d.parents = [] → d.inside = [] → n ∈ d'.names →
      parse r' mode ("\x7b% " ++ n ++ " %\x7d") = .ok [.tag ⟨n, d', .none, 0⟩ [] []] := by
  intro h
  obtain ⟨r', d', hregister, hnames⟩ :=
    register_voidTag "raw" (by decide +kernel) .standard .standard .echo
  have hmem : "raw" ∈ d'.names := by
    rw [hnames]
    decide +kernel
  have hparse := h .standard r' "raw" .standard _ d' "raw" .standard hregister rfl rfl rfl rfl hmem
  cases (parse_verbatimTag .raw r' .standard).symm.trans hparse

end TemplateEngine.Markup
