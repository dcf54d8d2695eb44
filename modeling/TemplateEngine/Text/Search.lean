import TemplateEngine.Text.Blank

/-!
# Searching, splitting and replacing

Occurrences of one text in another are found from the left and do not overlap.  Splitting at a
separator and joining with it again gives back the text.
-/

namespace TemplateEngine.Text

/-- `needle` is a part of the text. -/
def occursIn (needle : List Char) : List Char → Bool
  | [] => needle.isEmpty
  | c :: cs => needle.isPrefixOf (c :: cs) || occursIn needle cs

/-- What stands behind `part` in a text that begins with it. -/
def dropPart? : List Char → List Char → Option (List Char)
  | [], s => some s
  | _ :: _, [] => none
  | c :: part, d :: s => if c = d then dropPart? part s else none

/-- A part is dropped exactly from the texts that it begins. -/
theorem dropPart?_eq_some_iff {part s rest : List Char} :
    dropPart? part s = some rest ↔ s = part ++ rest := by
  induction part generalizing s with
  | nil => simp [dropPart?]
  | cons c part ih =>
    cases s with
    | nil => simp [dropPart?]
    | cons d s =>
      by_cases h : c = d
      · simp [dropPart?, h, ih]
      · simp [dropPart?, h, Ne.symm h]

/-- The text before the first occurrence of `sep`, and the text after it. -/
def cut? (sep : List Char) : List Char → Option (List Char × List Char)
  | [] => if sep.isEmpty then some ([], []) else none
  | c :: cs =>
    match dropPart? sep (c :: cs) with
    | some rest => some ([], rest)
    | none => (cut? sep cs).map fun (before, after) => (c :: before, after)

/-- Cutting loses nothing but the separator. -/
theorem eq_append_of_cut? {sep : List Char} :
    ∀ {s a b : List Char}, cut? sep s = some (a, b) → s = a ++ sep ++ b := by
  intro s
  induction s with
  | nil =>
    intro a b h
    simp only [cut?] at h
    split at h
    · next hs => simp only [List.isEmpty_iff] at hs; simp_all
    · simp at h
  | cons c s ih =>
    intro a b h
    simp only [cut?] at h
    split at h
    · next rest hr =>
      simp only [Option.some.injEq, Prod.mk.injEq] at h
      simp [← h.1, ← h.2, dropPart?_eq_some_iff.1 hr]
    · obtain ⟨⟨a', b'⟩, hab, hp⟩ := Option.map_eq_some_iff.1 h
      simp only [Prod.mk.injEq] at hp
      simp [← hp.1, ← hp.2, ih hab]

/-- The parts of a text between the occurrences of the separator `c :: more`. -/
def splitOn (c : Char) (more : List Char) (s : List Char) : List (List Char) :=
  match _h : cut? (c :: more) s with
  | none => [s]
  | some (before, after) => before :: splitOn c more after
termination_by s.length
decreasing_by
  have := congrArg List.length (eq_append_of_cut? _h)
  simp at this
  omega

/-- A text is cut at the first of its characters `c`, if it has one. -/
theorem cut?_singleton_cons (c d : Char) (s : List Char) :
    cut? [c] (d :: s) =
      if c = d then some ([], s)
      else (cut? [c] s).map fun (before, after) => (d :: before, after) := by
  rw [cut?, dropPart?, dropPart?]
  by_cases h : c = d <;> simp [h]

theorem cut?_append_cons {c : Char} {a : List Char} (h : c ∉ a) (b : List Char) :
    cut? [c] (a ++ c :: b) = some (a, b) := by
  induction a with
  | nil => rw [List.nil_append, cut?_singleton_cons, if_pos rfl]
  | cons d a ih =>
    rw [List.mem_cons, not_or] at h
    rw [List.cons_append, cut?_singleton_cons, if_neg h.1, ih h.2]
    rfl

theorem cut?_eq_none_iff {c : Char} {s : List Char} : cut? [c] s = none ↔ c ∉ s := by
  induction s with
  | nil => simp [cut?]
  | cons d s ih =>
    rw [cut?_singleton_cons, List.mem_cons, not_or, ← ih]
    by_cases h : c = d <;> simp [h]

theorem not_mem_of_cut? {c : Char} {s a b : List Char} (h : cut? [c] s = some (a, b)) : c ∉ a := by
  induction s generalizing a with
  | nil => cases h
  | cons d s ih =>
    rw [cut?_singleton_cons] at h
    split at h
    · cases h
      exact List.not_mem_nil
    · next hne =>
      obtain ⟨⟨a', b'⟩, hcut, he⟩ := Option.map_eq_some_iff.mp h
      cases he
      exact fun hmem => (List.mem_cons.mp hmem).elim hne (ih hcut)

theorem splitOn_of_not_mem {c : Char} {s : List Char} (h : c ∉ s) : splitOn c [] s = [s] := by
  rw [splitOn]
  split
  · rfl
  · next hcut =>
    rw [cut?_eq_none_iff.mpr h] at hcut
    cases hcut

theorem splitOn_of_cut? {c : Char} {more s before after : List Char}
    (h : cut? (c :: more) s = some (before, after)) :
    splitOn c more s = before :: splitOn c more after := by
  rw [splitOn]
  split
  · next hnone =>
    rw [hnone] at h
    cases h
  · next hcut =>
    rw [hcut] at h
    cases h
    rfl

/-- What stands on either side of a separator is split on its own. -/
theorem splitOn_append_cons (c : Char) (a b : List Char) :
    splitOn c [] (a ++ c :: b) = splitOn c [] a ++ splitOn c [] b := by
  fun_induction splitOn c [] a with
  | case1 a h => exact splitOn_of_cut? (cut?_append_cons (cut?_eq_none_iff.mp h) b)
  | case2 a before after h ih =>
    have hwhole : a ++ c :: b = before ++ c :: (after ++ c :: b) := by
      rw [eq_append_of_cut? h]
      simp
    rw [hwhole, splitOn_of_cut? (cut?_append_cons (not_mem_of_cut? h) _), ih]
    rfl

/-- Every occurrence of `old` gives way to `new`; the empty text occurs before every character
and at the end. -/
def replace (old new s : List Char) : List Char :=
  match old with
  | [] => new ++ s.flatMap fun c => c :: new
  | c :: more => List.intercalate new (splitOn c more s)

/-- The parts of a text between runs of white space; none is empty. -/
def words (s : List Char) : List (List Char) :=
  match _h : trimStart s with
  | [] => []
  | c :: cs =>
    (c :: cs.takeWhile fun d => !isBlank d) :: words (cs.dropWhile fun d => !isBlank d)
termination_by s.length
decreasing_by
  have h₁ := trimStart_length_le s
  have h₂ := (List.dropWhile_suffix (l := cs) fun d => !isBlank d).length_le
  simp only [_h, List.length_cons] at h₁
  omega

end TemplateEngine.Text
