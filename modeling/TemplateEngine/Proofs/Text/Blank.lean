import Mathlib.Data.List.TakeWhile
import TemplateEngine.Text.Letter
import TemplateEngine.Text.Blank

/-!
# White space around a text

Trimming takes white space off both ends and nothing else (`exists_trim`).  White space stands in
no name.
-/

namespace TemplateEngine.Text

/-- The text is white space only. -/
def AllBlank (cs : List Char) : Prop := ∀ c ∈ cs, isBlank c = true

theorem allBlank_space : AllBlank [' '] := fun c hc => by
  rw [List.mem_singleton.mp hc]
  decide

theorem allBlank_takeWhile (cs : List Char) : AllBlank (cs.takeWhile isBlank) :=
  fun _ hc => List.mem_takeWhile_imp hc

theorem exists_trimEnd (cs : List Char) : ∃ trail, AllBlank trail ∧ cs = trimEnd cs ++ trail := by
  refine ⟨(cs.reverse.takeWhile isBlank).reverse, fun c hc => ?_, ?_⟩
  · exact allBlank_takeWhile _ c (List.mem_reverse.mp hc)
  · rw [trimEnd, dropTrailing, ← List.reverse_append, List.takeWhile_append_dropWhile,
      List.reverse_reverse]

/-- A text is what trimming leaves of it between white space. -/
theorem exists_trim (cs : List Char) :
    ∃ trail, AllBlank trail ∧ cs = cs.takeWhile isBlank ++ (trim cs ++ trail) := by
  obtain ⟨trail, ht, he⟩ := exists_trimEnd (trimStart cs)
  refine ⟨trail, ht, ?_⟩
  rw [trim, ← he, trimStart, List.takeWhile_append_dropWhile]

theorem allBlank_of_trim {cs : List Char} (h : (trim cs).isEmpty = true) : AllBlank cs := by
  obtain ⟨trail, ht, he⟩ := exists_trim cs
  rw [List.isEmpty_iff.mp h, List.nil_append] at he
  rw [he]
  intro c hc
  rcases List.mem_append.mp hc with hc | hc
  · exact allBlank_takeWhile cs c hc
  · exact ht c hc

theorem dropWhile_isBlank_eq_self {cs : List Char} (h : ∀ c ∈ cs, isBlank c = false) :
    cs.dropWhile isBlank = cs :=
  List.dropWhile_eq_self_iff.mpr fun hl => by simp [h]

theorem trim_eq_self {cs : List Char} (h : ∀ c ∈ cs, isBlank c = false) : trim cs = cs := by
  rw [trim, trimStart, dropWhile_isBlank_eq_self h, trimEnd, dropTrailing,
    dropWhile_isBlank_eq_self (by simpa using h), List.reverse_reverse]

theorem isNamePart_of_isBlank {c : Char} (h : isBlank c = true) : isNamePart c = false := by
  have codes : ∀ n ∈ [9, 10, 11, 12, 13, 0x20, 0x85, 0xA0, 0x1680, 0x2000, 0x2001, 0x2002, 0x2003,
      0x2004, 0x2005, 0x2006, 0x2007, 0x2008, 0x2009, 0x200A, 0x2028, 0x2029, 0x202F, 0x205F,
      0x3000], isNamePart (Char.ofNat n) = false := by decide +kernel
  have hn := codes c.toNat (by simp [isBlank] at h ⊢; omega)
  rwa [Char.ofNat_toNat] at hn

end TemplateEngine.Text
