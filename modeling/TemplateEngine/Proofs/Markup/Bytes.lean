import TemplateEngine.Proofs.Markup.Cuts
import TemplateEngine.Proofs.Text.Utf8

/-!
# The ends of tags and outputs in bytes

The search for the end of a tag or an output goes from character to character (`findClose?`), while
offsets count bytes.  This is the same search on the bytes of a text (`findCloseBytes?`), where a
backslash hides one byte.

The characters that the search tells apart are single bytes below 128, and no byte of any other
character is below 128.  So the search passes over those, also over what is left of a character
whose first byte was hidden, and it ends where the other search does (`findCloseBytes?_utf8`).  What
stands between the delimiters ends at the byte that it finds (`readInner_eq_ok_iff`).
-/

namespace TemplateEngine.Markup

open Text

/-! ### The search -/

/-- How a scan of bytes outside of strings goes on behind a byte. -/
def passOverByte (b : UInt8) (depth : Nat) : Option UInt8 × Nat :=
  if b = 0x27 ∨ b = 0x22 then (some b, depth)
  else if b = 0x7b then (none, depth + 1)
  else if b = 0x7d then (none, depth - 1)
  else (none, depth)

/-- How many bytes stand before the first `close` outside of strings and braces.  In a string a
backslash hides the byte behind it. -/
def findCloseBytes? (close : List UInt8) (quote : Option UInt8) (depth : Nat) :
    List UInt8 → Option Nat
  | [] => none
  | b :: bs =>
    match quote with
    | some q =>
      if b = 0x5c then
        match bs with
        | [] => none
        | _ :: bs => (findCloseBytes? close quote depth bs).map (· + 2)
      else (findCloseBytes? close (if b = q then none else quote) depth bs).map (· + 1)
    | none =>
      if depth = 0 ∧ close.isPrefixOf (b :: bs) then some 0
      else
        (findCloseBytes? close (passOverByte b depth).1 (passOverByte b depth).2 bs).map (· + 1)

theorem findCloseBytes?_none_cons (close : List UInt8) (depth : Nat) (b : UInt8) (bs : List UInt8) :
    findCloseBytes? close none depth (b :: bs) =
      if depth = 0 ∧ close.isPrefixOf (b :: bs) then some 0
      else
        (findCloseBytes? close (passOverByte b depth).1 (passOverByte b depth).2 bs).map
          (· + 1) := by
  rw [findCloseBytes?.eq_def]

theorem findCloseBytes?_escape (close : List UInt8) (q : UInt8) (depth : Nat) (b : UInt8)
    (bs : List UInt8) :
    findCloseBytes? close (some q) depth (0x5c :: b :: bs) =
      (findCloseBytes? close (some q) depth bs).map (· + 2) := by
  rw [findCloseBytes?.eq_def]
  rfl

theorem findCloseBytes?_quoted (close : List UInt8) (q : UInt8) (depth : Nat) {b : UInt8}
    (hb : b ≠ 0x5c) (bs : List UInt8) :
    findCloseBytes? close (some q) depth (b :: bs) =
      (findCloseBytes? close (if b = q then none else some q) depth bs).map (· + 1) := by
  rw [findCloseBytes?.eq_def]
  dsimp only
  rw [if_neg hb]

/-- A byte and the character that it is are passed over alike. -/
theorem passOverByte_byteOf {c : Char} (hc : IsAscii c) (depth : Nat) :
    passOverByte (byteOf c) depth = ((passOver c depth).1.map byteOf, (passOver c depth).2) := by
  have hapostrophe : byteOf c = 0x27 ↔ c = '\x27' := byteOf_inj (d := '\x27') hc (by decide)
  have hquote : byteOf c = 0x22 ↔ c = '"' := byteOf_inj (d := '"') hc (by decide)
  have hopen : byteOf c = 0x7b ↔ c = '\x7b' := byteOf_inj (d := '\x7b') hc (by decide)
  have hclose : byteOf c = 0x7d ↔ c = '\x7d' := byteOf_inj (d := '\x7d') hc (by decide)
  simp only [passOverByte, passOver, hapostrophe, hquote, hopen, hclose, Bool.or_eq_true,
    beq_iff_eq]
  split_ifs <;> rfl

theorem passOverByte_of_le {b : UInt8} (hb : 128 ≤ b.toNat) (depth : Nat) :
    passOverByte b depth = (none, depth) := by
  have hapostrophe : b ≠ 0x27 := ne_byteOf (c := '\x27') hb (by decide)
  have hquote : b ≠ 0x22 := ne_byteOf (c := '"') hb (by decide)
  have hopen : b ≠ 0x7b := ne_byteOf (c := '\x7b') hb (by decide)
  have hclose : b ≠ 0x7d := ne_byteOf (c := '\x7d') hb (by decide)
  simp only [passOverByte, hapostrophe, hquote, hopen, hclose, or_self, if_false]

theorem passOver_of_not_isAscii {c : Char} (hc : ¬ IsAscii c) (depth : Nat) :
    passOver c depth = (none, depth) := by
  have hapostrophe : c ≠ '\x27' := ne_of_not_isAscii hc (by decide)
  have hquote : c ≠ '"' := ne_of_not_isAscii hc (by decide)
  have hopen : c ≠ '\x7b' := ne_of_not_isAscii hc (by decide)
  have hclose : c ≠ '\x7d' := ne_of_not_isAscii hc (by decide)
  simp [passOver, hapostrophe, hquote, hopen, hclose]

theorem isAscii_of_passOver {c : Char} (hc : IsAscii c) (depth : Nat) :
    ∀ q ∈ (passOver c depth).1, IsAscii q := by
  intro q hq
  unfold passOver at hq
  split at hq
  · cases hq
    exact hc
  · split at hq
    · cases hq
    · split at hq <;> cases hq

theorem isAscii_of_quoted {q : Char} (hq : IsAscii q) (c : Char) :
    ∀ p ∈ (if c == q then none else some q), IsAscii p := by
  intro p hp
  split at hp
  · cases hp
  · cases hp
    exact hq

/-- A byte that ends a string is the character that does. -/
theorem findCloseBytes?_byteOf (close : List UInt8) {c q : Char} (hc : IsAscii c) (hq : IsAscii q)
    (hbackslash : c ≠ '\\') (depth : Nat) (bs : List UInt8) :
    findCloseBytes? close (some (byteOf q)) depth (byteOf c :: bs) =
      (findCloseBytes? close ((if c == q then none else some q).map byteOf) depth bs).map
        (· + 1) := by
  have hbyte : byteOf c ≠ 0x5c := mt (byteOf_inj (d := '\\') hc (by decide)).mp hbackslash
  have hstate : (if byteOf c = byteOf q then none else some (byteOf q)) =
      (if c == q then none else some q).map byteOf := by
    simp only [byteOf_inj hc hq, beq_iff_eq]
    split <;> rfl
  rw [findCloseBytes?_quoted close _ depth hbyte, hstate]

section
variable {close : List Char} (hne : close ≠ []) (hascii : ∀ c ∈ close, IsAscii c)
  {quote : Option Char} (hquote : ∀ q ∈ quote, IsAscii q)
include hne hascii

/-- Nothing but an ASCII character begins the delimiter. -/
theorem not_isPrefixOf_of_le {b : UInt8} (hb : 128 ≤ b.toNat) (bs : List UInt8) :
    (utf8 close).isPrefixOf (b :: bs) = false := by
  obtain ⟨c, more, rfl⟩ := List.exists_cons_of_ne_nil hne
  have hc : IsAscii c := hascii c List.mem_cons_self
  have hbyte : (byteOf c == b) = false := beq_eq_false_iff_ne.mpr (ne_byteOf hb hc).symm
  rw [utf8_cons_of_isAscii hc, List.isPrefixOf_cons_cons, hbyte, Bool.false_and]

include hquote

/-- Bytes from 128 on change nothing, in strings and outside of them. -/
theorem findCloseBytes?_append (depth : Nat) {high : List UInt8} (h : ∀ b ∈ high, 128 ≤ b.toNat)
    (bs : List UInt8) :
    findCloseBytes? (utf8 close) (quote.map byteOf) depth (high ++ bs) =
      (findCloseBytes? (utf8 close) (quote.map byteOf) depth bs).map (· + high.length) := by
  induction high with
  | nil => simp
  | cons b high ih =>
    rw [List.forall_mem_cons] at h
    have hmap : (findCloseBytes? (utf8 close) (quote.map byteOf) depth (high ++ bs)).map (· + 1) =
        (findCloseBytes? (utf8 close) (quote.map byteOf) depth bs).map
          (· + (b :: high).length) := by
      rw [ih h.2, Option.map_map]
      rfl
    rw [List.cons_append, ← hmap]
    cases quote with
    | none =>
      rw [Option.map_none, findCloseBytes?_none_cons, not_isPrefixOf_of_le hne hascii h.1,
        passOverByte_of_le h.1, if_neg (by simp)]
    | some q =>
      have hbackslash : b ≠ 0x5c := ne_byteOf (c := '\\') h.1 (by decide)
      rw [Option.map_some, findCloseBytes?_quoted _ _ _ hbackslash,
        if_neg (ne_byteOf h.1 (hquote q rfl))]

/-- A character that is several bytes changes nothing either. -/
theorem findClose?_cons_of_not_isAscii {c : Char} (hc : ¬ IsAscii c) (depth : Nat)
    (cs : List Char) :
    findClose? close quote depth (c :: cs) = (findClose? close quote depth cs).map (· + 1) := by
  cases quote with
  | none =>
    obtain ⟨d, more, rfl⟩ := List.exists_cons_of_ne_nil hne
    have hd : d ≠ c := (ne_of_not_isAscii hc (hascii d List.mem_cons_self)).symm
    rw [findClose?_none_cons, passOver_of_not_isAscii hc, if_neg (by simp [hd])]
  | some q =>
    have hq : (c == q) = false := beq_eq_false_iff_ne.mpr (ne_of_not_isAscii hc (hquote q rfl))
    rw [findClose?_quoted close q (ne_of_not_isAscii hc (by decide)), hq]
    rfl

omit hquote in
/-- Of a character behind a backslash the first byte is hidden, and the others change nothing. -/
theorem findCloseBytes?_hidden {q : Char} (hq : IsAscii q) (depth : Nat) (c : Char)
    (cs : List Char) :
    findCloseBytes? (utf8 close) (some (byteOf q)) depth (utf8 ('\\' :: c :: cs)) =
      (findCloseBytes? (utf8 close) (some (byteOf q)) depth (utf8 cs)).map
        (· + byteLength ['\\', c]) := by
  obtain ⟨b, high, hbytes, hhigh⟩ := exists_utf8EncodeChar c
  have hquote : ∀ p ∈ some q, IsAscii p := by simpa using hq
  have happend := findCloseBytes?_append hne hascii hquote depth hhigh (utf8 cs)
  rw [Option.map_some] at happend
  have hbackslash : byteOf '\\' = 0x5c := rfl
  have hlen : byteLength ['\\', c] = high.length + 2 := by
    rw [byteLength_cons, byteLength_cons, byteLength_nil, utf8Size_eq_one (by decide),
      ← String.length_utf8EncodeChar, hbytes, List.length_cons]
    omega
  rw [utf8_cons_of_isAscii (by decide), utf8_cons, hbytes, List.cons_append, hbackslash,
    findCloseBytes?_escape, happend, Option.map_map, hlen]
  rfl

/-- The search on bytes ends where the search on characters does. -/
theorem findCloseBytes?_utf8 (depth : Nat) (cs : List Char) :
    findCloseBytes? (utf8 close) (quote.map byteOf) depth (utf8 cs) =
      (findClose? close quote depth cs).map fun n => byteLength (cs.take n) := by
  induction hl : cs.length using Nat.strong_induction_on generalizing quote depth cs with
  | h l ih =>
    subst hl
    cases cs with
    | nil => rw [findClose?]; rfl
    | cons c cs =>
      have hnext := map_byteLength_append [c] cs
      rw [byteLength_cons, byteLength_nil, Nat.add_zero] at hnext
      by_cases hc : IsAscii c
      · rw [utf8Size_eq_one hc] at hnext
        cases quote with
        | none =>
          rw [utf8_cons_of_isAscii hc, Option.map_none, findCloseBytes?_none_cons,
            findClose?_none_cons, ← utf8_cons_of_isAscii hc, isPrefixOf_utf8 hascii,
            passOverByte_byteOf hc, ih _ (by simp) (isAscii_of_passOver hc depth) _ cs rfl, hnext]
          split <;> rfl
        | some q =>
          by_cases hbackslash : c = '\\'
          · subst hbackslash
            cases cs with
            | nil => rw [findClose?]; rfl
            | cons d cs =>
              have hlt : cs.length < ('\\' :: d :: cs).length := by
                simp only [List.length_cons]
                omega
              have hrest := ih _ hlt hquote depth cs rfl
              rw [Option.map_some] at hrest ⊢
              rw [findCloseBytes?_hidden hne hascii (hquote q rfl), hrest, findClose?_escape]
              exact map_byteLength_append ['\\', d] cs _
          · rw [utf8_cons_of_isAscii hc, Option.map_some,
              findCloseBytes?_byteOf _ hc (hquote q rfl) hbackslash,
              findClose?_quoted close q hbackslash,
              ih _ (by simp) (isAscii_of_quoted (hquote q rfl) c) depth cs rfl, hnext]
            rfl
      · rw [utf8_cons, findCloseBytes?_append hne hascii hquote depth
          (fun b hb => le_of_mem_utf8EncodeChar hc hb), ih _ (by simp) hquote depth cs rfl,
          String.length_utf8EncodeChar, hnext,
          findClose?_cons_of_not_isAscii hne hascii hquote hc]
        rfl

end

/-! ### The inside of a construct -/

theorem closer_isAscii (d : Delimiter) : ∀ c ∈ d.closer, IsAscii c := by
  cases d <;> simp [Delimiter.closer, IsAscii]

/-- The inside of a tag or an output is what stands in front of the byte that the search on bytes
finds. -/
theorem readInner_eq_ok_iff {d : Delimiter} {offset : Nat} {cs body : List Char} :
    readInner d offset cs = .ok body ↔
      body <+: cs.drop 2 ∧
        findCloseBytes? (utf8 d.closer) none 0 (utf8 (cs.drop 2)) = some (utf8 body).length := by
  have hquote : ∀ q ∈ (none : Option Char), IsAscii q := nofun
  have hbytes := findCloseBytes?_utf8 d.closer_ne_nil (closer_isAscii d) hquote 0 (cs.drop 2)
  rw [Option.map_none] at hbytes
  rw [hbytes, readInner, length_utf8]
  cases findClose? d.closer none 0 (cs.drop 2) with
  | none => simp
  | some n =>
    rw [Option.map_some, Option.some.injEq, Except.ok.injEq]
    constructor
    · rintro rfl
      exact ⟨List.take_prefix n _, rfl⟩
    · rintro ⟨hpre, hlen⟩
      exact eq_of_byteLength (List.take_prefix n _) hpre hlen

end TemplateEngine.Markup
