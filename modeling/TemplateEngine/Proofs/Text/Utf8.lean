import Mathlib.Data.List.Basic
import TemplateEngine.Text.Bytes

/-!
# Texts in UTF-8

The bytes of a text.  An ASCII character is one byte below 128, and all bytes of other characters
are from 128 on (`le_of_mem_utf8EncodeChar`), so whether an ASCII text begins another text can be
seen from the bytes (`isPrefixOf_utf8`).
-/

namespace TemplateEngine.Text

/-- The bytes of a text in UTF-8. -/
def utf8 (cs : List Char) : List UInt8 := cs.flatMap String.utf8EncodeChar

theorem utf8_cons (c : Char) (cs : List Char) :
    utf8 (c :: cs) = String.utf8EncodeChar c ++ utf8 cs :=
  List.flatMap_cons

theorem length_utf8 (cs : List Char) : (utf8 cs).length = byteLength cs := by
  induction cs with
  | nil => rfl
  | cons c cs ih =>
    rw [utf8_cons, List.length_append, String.length_utf8EncodeChar, ih, byteLength_cons]

/-- The character is one byte. -/
def IsAscii (c : Char) : Prop := c.toNat < 128

instance (c : Char) : Decidable (IsAscii c) := inferInstanceAs (Decidable (_ < _))

/-- The byte of a character that is one byte. -/
def byteOf (c : Char) : UInt8 := UInt8.ofNat c.toNat

theorem toNat_byteOf {c : Char} (hc : IsAscii c) : (byteOf c).toNat = c.toNat := by
  unfold IsAscii at hc
  rw [byteOf, UInt8.toNat_ofNat']
  exact Nat.mod_eq_of_lt (by omega)

theorem byteOf_inj {c d : Char} (hc : IsAscii c) (hd : IsAscii d) :
    byteOf c = byteOf d ↔ c = d := by
  refine ⟨fun h => ?_, fun h => h ▸ rfl⟩
  have hnat := congrArg UInt8.toNat h
  rw [toNat_byteOf hc, toNat_byteOf hd] at hnat
  rw [← Char.ofNat_toNat c, hnat, Char.ofNat_toNat]

theorem utf8_cons_of_isAscii {c : Char} (hc : IsAscii c) (cs : List Char) :
    utf8 (c :: cs) = byteOf c :: utf8 cs := by
  have hle : c.val.toNat ≤ 127 := Nat.le_of_lt_succ hc
  rw [utf8_cons, String.utf8EncodeChar, if_pos hle]
  rfl

theorem utf8Size_eq_one {c : Char} (hc : IsAscii c) : c.utf8Size = 1 := by
  rw [← String.length_utf8EncodeChar, ← List.append_nil (String.utf8EncodeChar c)]
  exact congrArg List.length (utf8_cons_of_isAscii hc [])

theorem ne_of_not_isAscii {c d : Char} (hc : ¬ IsAscii c) (hd : IsAscii d) : c ≠ d := by
  rintro rfl
  exact hc hd

/-- No byte of a character that is several bytes is that of an ASCII character. -/
theorem le_of_mem_utf8EncodeChar {c : Char} (hc : ¬ IsAscii c) {b : UInt8}
    (hb : b ∈ String.utf8EncodeChar c) : 128 ≤ b.toNat := by
  have hhigh : ∀ n : Nat, 128 ≤ n → n < 256 → 128 ≤ (UInt8.ofNat n).toNat := by
    intro n hle hlt
    rwa [UInt8.toNat_ofNat', Nat.mod_eq_of_lt hlt]
  have hgt : ¬ c.val.toNat ≤ 127 := mt Nat.lt_succ_of_le hc
  rw [String.utf8EncodeChar, if_neg hgt] at hb
  split at hb
  · simp only [List.mem_cons, List.not_mem_nil, or_false] at hb
    rcases hb with rfl | rfl <;> exact hhigh _ (by omega) (by omega)
  · split at hb
    · simp only [List.mem_cons, List.not_mem_nil, or_false] at hb
      rcases hb with rfl | rfl | rfl <;> exact hhigh _ (by omega) (by omega)
    · simp only [List.mem_cons, List.not_mem_nil, or_false] at hb
      rcases hb with rfl | rfl | rfl | rfl <;> exact hhigh _ (by omega) (by omega)

theorem ne_byteOf {b : UInt8} (hb : 128 ≤ b.toNat) {c : Char} (hc : IsAscii c) : b ≠ byteOf c := by
  rintro rfl
  rw [toNat_byteOf hc] at hb
  exact absurd hc (Nat.not_lt.mpr hb)

/-- Behind its first byte no byte of a character is that of an ASCII character. -/
theorem exists_utf8EncodeChar (c : Char) :
    ∃ b high, String.utf8EncodeChar c = b :: high ∧ ∀ b ∈ high, 128 ≤ b.toNat := by
  obtain ⟨b, high, hbytes⟩ := List.exists_cons_of_ne_nil (String.utf8EncodeChar_ne_nil (c := c))
  refine ⟨b, high, hbytes, fun b' hb' => ?_⟩
  by_cases hc : IsAscii c
  · have hlen := congrArg List.length hbytes
    rw [String.length_utf8EncodeChar, utf8Size_eq_one hc, List.length_cons] at hlen
    cases List.eq_nil_of_length_eq_zero (by omega : high.length = 0)
    cases hb'
  · exact le_of_mem_utf8EncodeChar hc (by simp [hbytes, hb'])

/-- A text begins with an ASCII text if its bytes do. -/
theorem isPrefixOf_utf8 {part : List Char} (h : ∀ c ∈ part, IsAscii c) (cs : List Char) :
    (utf8 part).isPrefixOf (utf8 cs) = part.isPrefixOf cs := by
  induction part generalizing cs with
  | nil => rfl
  | cons c part ih =>
    rw [List.forall_mem_cons] at h
    rw [utf8_cons_of_isAscii h.1]
    cases cs with
    | nil => rfl
    | cons d cs =>
      by_cases hd : IsAscii d
      · have hsame : (byteOf c == byteOf d) = (c == d) := by
          rw [Bool.eq_iff_iff, beq_iff_eq, beq_iff_eq, byteOf_inj h.1 hd]
        rw [utf8_cons_of_isAscii hd, List.isPrefixOf_cons_cons, List.isPrefixOf_cons_cons, ih h.2,
          hsame]
      · obtain ⟨b, bs, hbytes⟩ := List.exists_cons_of_ne_nil (String.utf8EncodeChar_ne_nil (c := d))
        have hhigh : 128 ≤ b.toNat := le_of_mem_utf8EncodeChar hd (by simp [hbytes])
        have hbyte : (byteOf c == b) = false := beq_eq_false_iff_ne.mpr (ne_byteOf hhigh h.1).symm
        have hchar : (c == d) = false := beq_eq_false_iff_ne.mpr (ne_of_not_isAscii hd h.1).symm
        rw [utf8_cons, hbytes, List.cons_append, List.isPrefixOf_cons_cons,
          List.isPrefixOf_cons_cons, hbyte, hchar, Bool.false_and, Bool.false_and]

/-! ### Places -/

/-- A place in a text counted from further in front. -/
theorem map_byteLength_append (ds cs : List Char) (r : Option Nat) :
    (r.map fun n => byteLength (cs.take n)).map (· + byteLength ds) =
      (r.map (· + ds.length)).map fun n => byteLength ((ds ++ cs).take n) := by
  cases r with
  | none => rfl
  | some n =>
    simp only [Option.map_some]
    rw [Nat.add_comm n, List.take_length_add_append, byteLength_append, Nat.add_comm]

/-- Of a text no two beginnings are of one length. -/
theorem eq_of_byteLength {cs ds es : List Char} (hd : ds <+: cs) (he : es <+: cs)
    (h : byteLength ds = byteLength es) : ds = es := by
  have hext : ∀ {as bs : List Char}, as <+: bs → byteLength as = byteLength bs → as = bs := by
    rintro as _ ⟨more, rfl⟩ hlen
    rw [byteLength_append] at hlen
    by_cases hmore : more = []
    · rw [hmore, List.append_nil]
    · have hpos := byteLength_pos hmore
      omega
  rcases List.prefix_or_prefix_of_prefix hd he with hpre | hpre
  · exact hext hpre h
  · exact (hext hpre h.symm).symm

end TemplateEngine.Text
