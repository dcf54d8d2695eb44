import TemplateEngine.Tag.Registry

/-!
# Registries that changes can reach

A registry is reachable when it comes from the built-in one by registrations and removals.  Every
name in a reachable registry is a name that a tag can have and closes no block
(`Reachable.admissible`), so a tag that the reader finds in the registry is never a closing tag.
The entries of the built-in registry are the built-in tags under their names (`mem_standard`).
-/

namespace TemplateEngine.Tag

/-- A name closes a block when it is `end` and what stands behind it. -/
theorem closes?_eq_some_iff {name opener : String} :
    closes? name = some opener ↔ name = "end" ++ opener := by
  rw [closes?, Option.map_eq_some_iff]
  constructor
  · rintro ⟨rest, h, rfl⟩
    rw [Text.dropPart?_eq_some_iff] at h
    exact String.toList_inj.mp (by simp [h])
  · rintro rfl
    exact ⟨opener.toList, Text.dropPart?_eq_some_iff.mpr (by simp), String.ofList_toList⟩

namespace Registry

/-! ### The entries after a change -/

theorem mem_of_get? {r : Registry} {name : String} {mode : Mode} {d : Descriptor}
    (h : r.get? name mode = some d) : ((mode, name), d) ∈ r.entries := by
  rw [get?, List.lookup_eq_some_iff] at h
  obtain ⟨before, after, he, -⟩ := h
  simp [he]

theorem mem_erase {r : Registry} {name : String} {mode : Mode}
    {entry : (Mode × String) × Descriptor}
    (h : entry ∈ (r.erase name mode).entries) : entry ∈ r.entries :=
  (List.mem_filter.mp h).1

/-- A new entry is one of the names with the descriptor that lists them. -/
theorem mem_insertAll {names : List String} {mode : Mode} {d : Descriptor}
    {entry : (Mode × String) × Descriptor} {r : Registry}
    (h : entry ∈ (r.insertAll names mode d).entries) :
    entry ∈ r.entries ∨ ∃ n ∈ names, entry = ((mode, n), { d with names, mode }) := by
  have fold : ∀ (ns : List String) (r : Registry) (d' : Descriptor),
      entry ∈ (ns.foldl (fun r name => r.insert name mode d') r).entries →
        entry ∈ r.entries ∨ ∃ n ∈ ns, entry = ((mode, n), d') := by
    intro ns
    induction ns with
    | nil => exact fun r d' h => .inl h
    | cons n ns ih =>
      intro r d' h
      rcases ih _ d' h with h | ⟨k, hk, rfl⟩
      · rcases List.mem_cons.mp h with rfl | h
        · exact .inr ⟨n, by simp, rfl⟩
        · exact .inl (mem_erase h)
      · exact .inr ⟨k, by simp [hk], rfl⟩
  exact fold names r _ h

/-- The entries of the built-in registry. -/
theorem mem_standard {entry : (Mode × String) × Descriptor} (h : entry ∈ standard.entries) :
    ∃ mode, ∃ b ∈ builtins mode, ∃ n ∈ b.1,
      entry = ((mode, n), { b.2 with isProtected := true, names := b.1, mode }) := by
  have install : ∀ (mode : Mode) (bs : List (List String × Descriptor)) (r s : Registry),
      s = bs.foldl (fun r b => r.insertAll b.1 mode { b.2 with isProtected := true }) r →
        entry ∈ s.entries → entry ∈ r.entries ∨ ∃ b ∈ bs, ∃ n ∈ b.1,
          entry = ((mode, n), { b.2 with isProtected := true, names := b.1, mode }) := by
    intro mode bs
    induction bs with
    | nil =>
      rintro r _ rfl h
      exact .inl h
    | cons b bs ih =>
      rintro r _ rfl h
      rcases ih _ _ rfl h with h | ⟨c, hc, hn⟩
      · rcases mem_insertAll h with h | ⟨n, hn, rfl⟩
        · exact .inl h
        · exact .inr ⟨b, by simp, n, hn, rfl⟩
      · exact .inr ⟨c, by simp [hc], hn⟩
  rcases install .python _ _ _ rfl h with h | h
  · rcases install .standard _ _ _ rfl h with h | h
    · simp [empty] at h
    · exact ⟨.standard, h⟩
  · exact ⟨.python, h⟩

/-! ### Reachable registries -/

/-- A registry that registrations and removals make of the built-in one. -/
inductive Reachable : Registry → Prop where
  | standard : Reachable standard
  | register {r r' : Registry} {names : String} {mode : Mode} {d d' : Descriptor}
      (h : Reachable r) (e : r.register names mode d = .ok (r', d')) : Reachable r'
  | unregister {r r' : Registry} {name : String} {mode : Mode} {d : Descriptor}
      (h : Reachable r) (e : r.unregister name mode = .ok (r', d)) : Reachable r'

/-- A name that a registration accepts. -/
def Admissible (name : String) : Prop := isTagName name = true ∧ closes? name = none

/-- No clause asks for a block around it beside the one that it divides. -/
def FreeClauses (r : Registry) : Prop :=
  ∀ name mode d, r.get? name mode = some d → d.role = .clause → d.inside = []

instance (name : String) : Decidable (Admissible name) := inferInstanceAs (Decidable (_ ∧ _))

theorem Admissible.ne_empty {name : String} (h : Admissible name) : name ≠ "" := by
  rintro rfl
  exact absurd h.1 (by decide)

theorem admissible_of_refusal? {names : List String} (h : refusal? names = none) :
    ∀ n ∈ names, Admissible n := by
  intro n hn
  unfold refusal? at h
  split at h
  · simp at h
  · split at h
    · simp at h
    · next hv =>
      rw [Option.map_eq_none_iff] at h
      exact ⟨by simpa using List.find?_eq_none.mp hv n hn,
        by simpa using List.find?_eq_none.mp h n hn⟩

theorem admissible_builtins : ∀ mode, ∀ b ∈ builtins mode, ∀ n ∈ b.1, Admissible n := by
  intro mode
  cases mode <;> decide

/-- All names of a reachable registry are admissible. -/
theorem Reachable.admissible {r : Registry} (h : r.Reachable) :
    ∀ entry ∈ r.entries, Admissible entry.1.2 := by
  induction h with
  | standard =>
    intro entry he
    obtain ⟨mode, b, hb, n, hn, rfl⟩ := mem_standard he
    exact admissible_builtins mode b hb n hn
  | register h e ih =>
    intro entry he
    unfold Registry.register at e
    dsimp only at e
    split at e
    · cases e
    · next hr =>
      cases e
      rcases mem_insertAll he with he | ⟨n, hn, rfl⟩
      · exact ih entry he
      · exact admissible_of_refusal? hr n hn
  | unregister h e ih =>
    intro entry he
    unfold Registry.unregister at e
    split at e
    · cases e
    · split at e <;> cases e
      exact ih entry (mem_erase he)

theorem Reachable.admissible_of_get? {r : Registry} (h : r.Reachable) {name : String} {mode : Mode}
    {d : Descriptor} (hd : r.get? name mode = some d) : Admissible name :=
  h.admissible _ (mem_of_get? hd)

/-- A closing tag is not in a reachable registry. -/
theorem Reachable.get?_end {r : Registry} (h : r.Reachable) (opener : String) (mode : Mode) :
    r.get? ("end" ++ opener) mode = none := by
  cases hd : r.get? ("end" ++ opener) mode with
  | none => rfl
  | some d =>
    have hc := (h.admissible_of_get? hd).2
    rw [closes?_eq_some_iff.mpr rfl] at hc
    cases hc

theorem freeClauses_standard : standard.FreeClauses := by
  intro name mode d hd
  obtain ⟨mode', b, hb, n, hn, he⟩ := mem_standard (mem_of_get? hd)
  have hall : ∀ mode, ∀ b ∈ builtins mode, b.2.role = .clause → b.2.inside = [] := by
    intro mode
    cases mode <;> decide
  cases he
  exact hall mode b hb

end Registry

end TemplateEngine.Tag
