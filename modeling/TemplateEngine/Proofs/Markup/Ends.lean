import TemplateEngine.Markup.Piece
import TemplateEngine.Proofs.Except
import TemplateEngine.Proofs.Text.Blank

/-!
# The ends of constructs

What the three searches for the end of a construct find, said without the searches: the first
closing delimiter of a comment (`find?_eq_some_iff`), the first one outside of strings and braces,
which is the one behind a text that the scan passes over (`PassesOver`), and the first closing tag
of a verbatim block (`findClosingTag?_eq_some_iff`).  What stands behind the end is nowhere in these
statements, so it does not matter.
-/

namespace TemplateEngine.Markup

/-! ### Comments -/

theorem isPrefixOf_append {close s : List Char} (h : close.length ≤ s.length) (rest : List Char) :
    close.isPrefixOf (s ++ rest) = close.isPrefixOf s := by
  rw [Bool.eq_iff_iff, List.isPrefixOf_iff_prefix, List.isPrefixOf_iff_prefix]
  exact ⟨fun hp => List.prefix_of_prefix_length_le hp (List.prefix_append s rest) h,
    fun hp => hp.trans (List.prefix_append s rest)⟩

/-- The delimiter behind the text begins nowhere in it. -/
def Unclosed (close : List Char) : List Char → Prop
  | [] => True
  | c :: cs => ¬ close <+: c :: cs ++ close ∧ Unclosed close cs

/-- `find?` finds the first delimiter. -/
theorem find?_eq_some_iff {close cs : List Char} (hc : close ≠ []) {n : Nat} :
    find? close cs = some n ↔
      ∃ body rest, cs = body ++ close ++ rest ∧ body.length = n ∧ Unclosed close body := by
  induction cs generalizing n with
  | nil => simp [find?, hc]
  | cons c cs ih =>
    rw [find?]
    split
    · next hp =>
      obtain ⟨rest, hr⟩ := List.isPrefixOf_iff_prefix.mp hp
      constructor
      · intro h
        cases h
        exact ⟨[], rest, hr.symm, rfl, trivial⟩
      · rintro ⟨_ | ⟨d, body⟩, rest', he, rfl, hb⟩
        · rfl
        · rw [he, List.append_assoc, ← List.append_assoc, isPrefixOf_append (by simp; omega)] at hp
          exact absurd (List.isPrefixOf_iff_prefix.mp hp) hb.1
    · next hp =>
      rw [Option.map_eq_some_iff]
      constructor
      · rintro ⟨m, hm, rfl⟩
        obtain ⟨body, rest, rfl, rfl, hb⟩ := ih.mp hm
        rw [← List.cons_append, isPrefixOf_append (by simp; omega),
          List.isPrefixOf_iff_prefix] at hp
        exact ⟨c :: body, rest, rfl, rfl, hp, hb⟩
      · rintro ⟨_ | ⟨d, body⟩, rest, he, rfl, hb⟩
        · rw [List.nil_append] at he
          exact absurd (List.isPrefixOf_iff_prefix.mpr (he ▸ List.prefix_append _ _)) hp
        · cases he
          exact ⟨body.length, ih.mpr ⟨body, rest, rfl, rfl, hb.2⟩, rfl⟩

/-! ### Tags and outputs -/

/-- How a scan outside of strings goes on behind a character: the quote of the string that begins,
and the number of open braces. -/
def passOver (c : Char) (depth : Nat) : Option Char × Nat :=
  if c == '\x27' || c == '"' then (some c, depth)
  else if c == '\x7b' then (none, depth + 1)
  else if c == '\x7d' then (none, depth - 1)
  else (none, depth)

theorem findClose?_none_cons (close : List Char) (depth : Nat) (c : Char) (cs : List Char) :
    findClose? close none depth (c :: cs) =
      if depth = 0 ∧ close.isPrefixOf (c :: cs) then some 0
      else (findClose? close (passOver c depth).1 (passOver c depth).2 cs).map (· + 1) := by
  rw [findClose?.eq_def, passOver]
  dsimp only
  split
  · rfl
  · congr 1
    split
    · rfl
    · split
      · rfl
      · split <;> rfl

/-- In a string a backslash hides the character behind it. -/
theorem findClose?_escape (close : List Char) (q c : Char) (depth : Nat) (cs : List Char) :
    findClose? close (some q) depth ('\\' :: c :: cs) =
      (findClose? close (some q) depth cs).map (· + 2) := by
  rw [findClose?.eq_def]
  rfl

theorem findClose?_quoted (close : List Char) (q : Char) {c : Char} (hc : c ≠ '\\') (depth : Nat)
    (cs : List Char) :
    findClose? close (some q) depth (c :: cs) =
      (findClose? close (if c == q then none else some q) depth cs).map (· + 1) := by
  rw [findClose?.eq_def]
  simp [hc]

/-- The scan passes over the whole text and is outside of strings and braces behind it, where the
delimiter comes. -/
inductive PassesOver (close : List Char) : Option Char → Nat → List Char → Prop where
  | done : PassesOver close none 0 []
  | escape {q : Char} {depth : Nat} (c : Char) {cs : List Char}
      (h : PassesOver close (some q) depth cs) : PassesOver close (some q) depth ('\\' :: c :: cs)
  | quoted {q c : Char} {depth : Nat} {cs : List Char} (hc : c ≠ '\\')
      (h : PassesOver close (if c == q then none else some q) depth cs) :
      PassesOver close (some q) depth (c :: cs)
  | plain {c : Char} {depth : Nat} {cs : List Char} (hc : depth = 0 → ¬ close <+: c :: cs ++ close)
      (h : PassesOver close (passOver c depth).1 (passOver c depth).2 cs) :
      PassesOver close none depth (c :: cs)

theorem findClose?_of_passesOver {close : List Char} (hc : close ≠ []) {quote : Option Char}
    {depth : Nat} {body : List Char} (h : PassesOver close quote depth body) (rest : List Char) :
    findClose? close quote depth (body ++ close ++ rest) = some body.length := by
  induction h with
  | done =>
    obtain ⟨c, more, rfl⟩ := List.exists_cons_of_ne_nil hc
    rw [List.nil_append, List.cons_append, findClose?_none_cons, if_pos]
    · rfl
    · exact ⟨rfl, List.isPrefixOf_iff_prefix.mpr (List.prefix_append _ _)⟩
  | escape c h ih =>
    rw [List.cons_append, List.cons_append, List.cons_append, List.cons_append, findClose?_escape,
      ih]
    rfl
  | quoted hc h ih =>
    rw [List.cons_append, List.cons_append, findClose?_quoted close _ hc, ih]
    rfl
  | @plain c depth cs hp h ih =>
    rw [List.cons_append, List.cons_append, findClose?_none_cons, if_neg, ih]
    · rfl
    · rintro ⟨hd, hpre⟩
      rw [← List.cons_append, ← List.cons_append, isPrefixOf_append (by simp; omega),
        List.isPrefixOf_iff_prefix] at hpre
      exact hp hd hpre

theorem passesOver_of_findClose? {close : List Char} {quote : Option Char} {depth n : Nat}
    {cs : List Char} (h : findClose? close quote depth cs = some n) :
    ∃ body rest, cs = body ++ close ++ rest ∧ body.length = n ∧
      PassesOver close quote depth body := by
  induction hl : cs.length using Nat.strong_induction_on generalizing quote depth n cs with
  | h l ih =>
    subst hl
    cases cs with
    | nil => rw [findClose?] at h; cases h
    | cons c cs =>
      cases quote with
      | none =>
        rw [findClose?_none_cons] at h
        split at h
        · next hp =>
          cases h
          obtain ⟨rfl, hp⟩ := hp
          obtain ⟨rest, hr⟩ := List.isPrefixOf_iff_prefix.mp hp
          exact ⟨[], rest, hr.symm, rfl, .done⟩
        · next hp =>
          obtain ⟨m, hm, rfl⟩ := Option.map_eq_some_iff.mp h
          obtain ⟨body, rest, rfl, rfl, hb⟩ := ih _ (by simp) hm rfl
          refine ⟨c :: body, rest, rfl, rfl, .plain (fun hd hpre => hp ⟨hd, ?_⟩) hb⟩
          exact List.isPrefixOf_iff_prefix.mpr (hpre.trans (List.prefix_append _ _))
      | some q =>
        rw [findClose?.eq_def] at h
        dsimp only at h
        split at h
        · next hc =>
          rw [beq_iff_eq] at hc
          subst hc
          cases cs with
          | nil => cases h
          | cons d cs =>
            obtain ⟨m, hm, rfl⟩ := Option.map_eq_some_iff.mp h
            have hlt : cs.length < ('\\' :: d :: cs).length := by
              simp only [List.length_cons]
              omega
            obtain ⟨body, rest, rfl, rfl, hb⟩ := ih _ hlt hm rfl
            exact ⟨'\\' :: d :: body, rest, rfl, rfl, .escape d hb⟩
        · next hc =>
          obtain ⟨m, hm, rfl⟩ := Option.map_eq_some_iff.mp h
          obtain ⟨body, rest, rfl, rfl, hb⟩ := ih _ (by simp) hm rfl
          exact ⟨c :: body, rest, rfl, rfl, .quoted (by simpa using hc) hb⟩

/-! ### Verbatim blocks -/

/-- What stands between the delimiters of a closing tag: the name between white space, and trim
markers at the ends. -/
inductive IsClosing (name : List Char) : List Char → Prop where
  | intro {left lead trail right : List Char} (hl : left = [] ∨ left = ['-'])
      (hlead : Text.AllBlank lead) (htrail : Text.AllBlank trail)
      (hr : right = [] ∨ right = ['-']) : IsClosing name (left ++ lead ++ name ++ trail ++ right)

/-- The name of a tag can be told from what stands around it. -/
def IsTagName (name : List Char) : Prop :=
  name ≠ [] ∧ ∀ c ∈ name, Text.isBlank c = false ∧ c ∉ ['-', '\x7b', '%']

instance (name : List Char) : Decidable (IsTagName name) :=
  have : Decidable (∀ c ∈ name, Text.isBlank c = false ∧ c ∉ ['-', '\x7b', '%']) :=
    List.decidableBAll _ name
  inferInstanceAs (Decidable (_ ∧ _))

/-- The closing tag with this between its delimiters. -/
def closingTag (inner : List Char) : List Char :=
  Delimiter.tag.opener ++ inner ++ Delimiter.tag.closer

theorem takeWhile_isBlank_append {blanks rest : List Char} (h : Text.AllBlank blanks)
    (hr : ∀ c ∈ rest.head?, Text.isBlank c = false) :
    (blanks ++ rest).takeWhile Text.isBlank = blanks := by
  rw [List.takeWhile_append_of_pos h]
  cases rest with
  | nil => simp
  | cons c rest => simp [hr c (by simp)]

/-- A closing tag is read from its own characters. -/
theorem closingTag?_append {name inner : List Char} (hn : IsTagName name)
    (hi : IsClosing name inner) (rest : List Char) :
    closingTag? name (closingTag inner ++ rest) = some inner := by
  obtain ⟨hl, hlead, htrail, hr⟩ := hi
  rename_i left lead trail right
  obtain ⟨hne, hname⟩ := hn
  obtain ⟨c, more, hcons⟩ := List.exists_cons_of_ne_nil hne
  obtain ⟨hblank, hspecial⟩ := hname c (by simp [hcons])
  have hblankMinus : Text.isBlank '-' = false := by decide
  -- what stands behind the marker, and what stands behind the name
  let behind := trail ++ (right ++ ('%' :: '\x7d' :: rest))
  let cs := lead ++ (name ++ behind)
  have hleft : (if (left ++ cs).head? == some '-' then ['-'] else []) = left := by
    rcases hl with rfl | rfl
    · rw [if_neg]
      rw [beq_iff_eq]
      cases lead with
      | nil => simp_all [cs]
      | cons d lead =>
        rintro he
        cases he
        rw [hlead '-' (by simp)] at hblankMinus
        cases hblankMinus
    · rfl
  have hleadEq : cs.takeWhile Text.isBlank = lead :=
    takeWhile_isBlank_append hlead (by simp [hcons, hblank])
  have htrailEq : behind.takeWhile Text.isBlank = trail := by
    refine takeWhile_isBlank_append htrail ?_
    rcases hr with rfl | rfl <;> simp <;> decide
  have hdrop : Text.dropPart? name (cs.drop lead.length) = some behind :=
    Text.dropPart?_eq_some_iff.mpr (by simp [cs])
  have hcs : closingTag (left ++ lead ++ name ++ trail ++ right) ++ rest =
      '\x7b' :: '%' :: (left ++ cs) := by
    simp [closingTag, Delimiter.opener, Delimiter.closer, cs, behind]
  rw [hcs, closingTag?]
  simp only [hleft, List.drop_left, hleadEq, ← List.drop_drop, hdrop, htrailEq]
  have hbehind : behind.drop trail.length = right ++ ('%' :: '\x7d' :: rest) := by simp [behind]
  rw [hbehind]
  rcases hr with rfl | rfl <;> simp

/-- What is read as a closing tag is one. -/
theorem isClosing_of_closingTag? {name cs inner : List Char}
    (h : closingTag? name cs = some inner) :
    IsClosing name inner ∧ ∃ rest, cs = closingTag inner ++ rest := by
  unfold closingTag? at h
  split at h
  · next cs =>
    -- the parts in order: a marker, white space, the name, white space, what ends the tag
    let left := if cs.head? == some '-' then ['-'] else []
    have hleft : left = [] ∨ left = ['-'] := by
      by_cases hc : cs.head? == some '-' <;> simp [left, hc]
    have hcs : left ++ cs.drop left.length = cs := by
      by_cases hc : cs.head? == some '-'
      · cases cs with
        | nil => cases hc
        | cons d cs =>
          rw [List.head?_cons, beq_iff_eq, Option.some.injEq] at hc
          simp [left, hc]
      · simp [left, hc]
    let lead := (cs.drop left.length).takeWhile Text.isBlank
    have hlead : lead ++ cs.drop (left.length + lead.length) = cs.drop left.length := by
      rw [← List.drop_drop]
      exact List.prefix_iff_eq_append.mp (List.takeWhile_prefix _)
    dsimp only at h
    split at h
    · cases h
    · next rest hrest =>
      change Text.dropPart? name (cs.drop (left.length + lead.length)) = some rest at hrest
      rw [Text.dropPart?_eq_some_iff] at hrest
      let trail := rest.takeWhile Text.isBlank
      have htrail : trail ++ rest.drop trail.length = rest :=
        List.prefix_iff_eq_append.mp (List.takeWhile_prefix _)
      have closing : ∀ {right after : List Char}, (right = [] ∨ right = ['-']) →
          rest.drop trail.length = right ++ ('%' :: '\x7d' :: after) →
            IsClosing name (left ++ lead ++ name ++ trail ++ right) ∧
              ∃ rest', '\x7b' :: '%' :: cs =
                closingTag (left ++ lead ++ name ++ trail ++ right) ++ rest' := by
        intro right after hr ha
        refine ⟨.intro hleft (Text.allBlank_takeWhile _) (Text.allBlank_takeWhile _) hr, after, ?_⟩
        rw [ha] at htrail
        rw [hrest, ← htrail] at hlead
        rw [← hlead] at hcs
        rw [← hcs]
        simp [closingTag, Delimiter.opener, Delimiter.closer]
      split at h
      · next after ha =>
        cases h
        exact closing (.inr rfl) ha
      · next after ha =>
        cases h
        have hclosing := closing (.inl rfl) ha
        rw [List.append_nil] at hclosing
        exact hclosing
      · cases h
  · cases h

theorem closingTag?_eq_some_iff {name cs inner : List Char} (hn : IsTagName name) :
    closingTag? name cs = some inner ↔
      IsClosing name inner ∧ ∃ rest, cs = closingTag inner ++ rest := by
  refine ⟨isClosing_of_closingTag?, ?_⟩
  rintro ⟨hi, rest, rfl⟩
  exact closingTag?_append hn hi rest

/-- Between the delimiters of a closing tag no brace opens. -/
theorem IsClosing.lbrace_notMem {name inner : List Char} (hn : IsTagName name)
    (hi : IsClosing name inner) : '\x7b' ∉ inner := by
  obtain ⟨hl, hlead, htrail, hr⟩ := hi
  rename_i left lead trail right
  have hblank : ∀ {cs : List Char}, Text.AllBlank cs → '\x7b' ∉ cs := by
    intro cs hcs hmem
    have hb : Text.isBlank '\x7b' = false := by decide
    rw [hcs _ hmem] at hb
    cases hb
  have hmarker : ∀ {cs : List Char}, (cs = [] ∨ cs = ['-']) → '\x7b' ∉ cs := by
    rintro cs (rfl | rfl) <;> decide
  have hname : '\x7b' ∉ name := fun hmem => (hn.2 _ hmem).2 (by decide)
  simp [hmarker hl, hblank hlead, hname, hblank htrail, hmarker hr]

/-- There is no closing tag in the text. -/
def NoClosing (name cs : List Char) : Prop :=
  ∀ before inner after, cs = before ++ closingTag inner ++ after → ¬ IsClosing name inner

theorem noClosing_nil (name : List Char) : NoClosing name [] := by
  intro before inner after he
  simp [closingTag, Delimiter.opener] at he

theorem NoClosing.tail {name cs : List Char} {c : Char} (h : NoClosing name (c :: cs)) :
    NoClosing name cs :=
  fun before inner after he => h (c :: before) inner after (by rw [he]; rfl)

/-- Two closing tags do not overlap. -/
theorem exists_append_of_closingTag {name inner inner' body rest rest' : List Char}
    (hn : IsTagName name) (hi : IsClosing name inner') (hb : body ≠ [])
    (h : body ++ closingTag inner ++ rest = closingTag inner' ++ rest') :
    ∃ after, body = closingTag inner' ++ after := by
  rw [List.append_assoc, List.append_eq_append_iff] at h
  rcases h with ⟨u, hu, hrest⟩ | ⟨u, hu, -⟩
  · cases u with
    | nil => exact ⟨[], by simpa using hu.symm⟩
    | cons c u =>
      -- the other tag would begin inside of this one
      obtain ⟨d, body, rfl⟩ := List.exists_cons_of_ne_nil hb
      have hc : c = '\x7b' := by
        simp only [closingTag, Delimiter.opener, List.cons_append] at hrest
        exact (List.cons.inj hrest).1.symm
      have htail : ('%' :: inner' ++ Delimiter.tag.closer) = body ++ c :: u :=
        (List.cons.inj hu).2
      have hmem : '\x7b' ∈ '%' :: inner' ++ Delimiter.tag.closer := by
        rw [htail, hc]
        simp
      have hnot := hi.lbrace_notMem hn
      simp [Delimiter.closer, hnot] at hmem
  · exact ⟨u, hu⟩

/-- The closing tag that is found is the first. -/
theorem findClosingTag?_eq_some_iff {name cs inner : List Char} (hn : IsTagName name) {n : Nat} :
    findClosingTag? name cs = some (n, inner) ↔
      ∃ body rest, cs = body ++ closingTag inner ++ rest ∧ body.length = n ∧
        IsClosing name inner ∧ NoClosing name body := by
  induction cs generalizing n with
  | nil => simp [findClosingTag?, closingTag, Delimiter.opener]
  | cons c cs ih =>
    rw [findClosingTag?]
    split
    · next inner' hinner =>
      obtain ⟨hi, rest', hrest⟩ := (closingTag?_eq_some_iff hn).mp hinner
      constructor
      · intro h
        cases h
        exact ⟨[], rest', hrest, rfl, hi, noClosing_nil name⟩
      · rintro ⟨body, rest, he, rfl, hi', hb⟩
        cases body with
        | nil =>
          rw [he, List.nil_append, closingTag?_append hn hi'] at hinner
          cases hinner
          rfl
        | cons d body =>
          obtain ⟨after, ha⟩ := exists_append_of_closingTag hn hi (by simp) (he.symm.trans hrest)
          exact absurd hi (hb [] inner' after ha)
    · next hnone =>
      have hnot : ∀ {i} rest, IsClosing name i → c :: cs ≠ closingTag i ++ rest := by
        intro i rest hi he
        rw [(closingTag?_eq_some_iff hn).mpr ⟨hi, rest, he⟩] at hnone
        cases hnone
      rw [Option.map_eq_some_iff]
      constructor
      · rintro ⟨⟨m, inner'⟩, hm, he⟩
        cases he
        obtain ⟨body, rest, rfl, rfl, hi, hb⟩ := ih.mp hm
        refine ⟨c :: body, rest, rfl, rfl, hi, fun before i after he hi' => ?_⟩
        cases before with
        | nil =>
          refine hnot (after ++ (closingTag inner ++ rest)) hi' ?_
          rw [← List.append_assoc, ← List.nil_append (closingTag i), ← he]
          simp
        | cons d before => exact hb before i after (List.cons.inj he).2 hi'
      · rintro ⟨_ | ⟨d, body⟩, rest, he, rfl, hi, hb⟩
        · exact absurd he (hnot rest hi)
        · cases he
          exact ⟨(body.length, inner), ih.mpr ⟨body, rest, rfl, rfl, hi, hb.tail⟩, rfl⟩

theorem findClosingTag?_eq_none_iff {name cs : List Char} (hn : IsTagName name) :
    findClosingTag? name cs = none ↔ NoClosing name cs := by
  constructor
  · rintro h before inner after rfl hi
    have found : ∀ before, ∃ x,
        findClosingTag? name (before ++ closingTag inner ++ after) = some x := by
      intro before
      induction before with
      | nil =>
        exact ⟨_, (findClosingTag?_eq_some_iff hn).mpr
          ⟨[], after, rfl, rfl, hi, noClosing_nil name⟩⟩
      | cons c before ih =>
        obtain ⟨⟨n, inner'⟩, hx⟩ := ih
        simp only [List.cons_append, findClosingTag?, hx]
        split
        · exact ⟨_, rfl⟩
        · exact ⟨_, rfl⟩
    obtain ⟨x, hx⟩ := found before
    rw [h] at hx
    cases hx
  · intro h
    cases hf : findClosingTag? name cs with
    | none => rfl
    | some x =>
      obtain ⟨body, rest, rfl, -, hi, -⟩ := (findClosingTag?_eq_some_iff (n := x.1) hn).mp hf
      exact absurd hi (h body _ rest rfl)

end TemplateEngine.Markup
