import Mathlib.Data.List.Induction
import TemplateEngine.Proofs.Tag.Reachable

/-!
# Histories of a registry

A history is a row of calls that register tags or take names away; a call that is refused changes
nothing.  Registries are compared with a finite map from dialects and names to descriptors.  It
starts as the built-in tags (`Registry.get?_standard`), and what it has under a name is decided by
the last call that touched the name and succeeded (`Registry.decided`).

The step lemma is `Registry.get?_after`: one call sets the entries that it touches, if it succeeds,
and leaves all others.  By induction over the history the registry has the entries of the map
(`Registry.get?_replay`).  The registry is reachable, so its names are admissible, and an entry that
is protected has never been touched (`Registry.replay_refines`).
-/

namespace TemplateEngine.Tag

/-- A call that registers a tag under a list of names, or takes a name away. -/
inductive Change where
  | register (names : String) (mode : Mode) (d : Descriptor)
  | unregister (name : String) (mode : Mode)

namespace Change

/-- The dialect that the call is for. -/
def mode : Change → Mode
  | .register _ mode _ | .unregister _ mode => mode

/-- The names that the call is for. -/
def names : Change → List String
  | .register names _ _ => splitNames names
  | .unregister name _ => [name]

/-- The call is for this name in this dialect. -/
def touches (name : String) (mode : Mode) (c : Change) : Bool :=
  c.mode == mode && c.names.contains name

/-- What stands under the names of the call once it has succeeded. -/
def entry? : Change → Option Descriptor
  | .register names mode d =>
    some { d with names := splitNames names, mode, isProtected := false }
  | .unregister .. => none

end Change

namespace Registry

/-- The registry after a call, and the descriptor that the call gives. -/
def perform (r : Registry) : Change → Except Error (Registry × Descriptor)
  | .register names mode d => r.register names mode d
  | .unregister name mode => r.unregister name mode

/-- The registry after a call that may be refused. -/
def after (r : Registry) (c : Change) : Registry :=
  match r.perform c with
  | .ok (r', _) => r'
  | .error _ => r

/-- The registry after a history, which begins with the built-in tags. -/
def replay (history : List Change) : Registry := history.foldl after standard

/-- The calls of a history that succeed when it begins with the registry. -/
def accepted (r : Registry) : List Change → List Change
  | [] => []
  | c :: history =>
    match r.perform c with
    | .ok (r', _) => c :: accepted r' history
    | .error _ => accepted r history

/-- The built-in tag of a name in a dialect. -/
def builtIn? (name : String) (mode : Mode) : Option Descriptor :=
  ((builtins mode).find? fun b => b.1.contains name).map fun b =>
    { b.2 with names := b.1, mode, isProtected := true }

/-- What a history leaves under a name: what the last call that touched it and succeeded puts there,
and the built-in tag if none did. -/
def decided (history : List Change) (name : String) (mode : Mode) : Option Descriptor :=
  match (accepted standard history).reverse.find? (Change.touches name mode) with
  | some c => c.entry?
  | none => builtIn? name mode

/-! ### The entries after a change -/

theorem get?_erase (r : Registry) (name other : String) (mode mode' : Mode) :
    (r.erase name mode).get? other mode' =
      if mode' = mode ∧ other = name then none else r.get? other mode' := by
  have filtered : ∀ entries : List ((Mode × String) × Descriptor),
      (entries.filter fun entry => entry.1 != (mode, name)).lookup (mode', other) =
        if mode' = mode ∧ other = name then none else entries.lookup (mode', other) := by
    intro entries
    induction entries with
    | nil => simp
    | cons entry entries ih =>
      obtain ⟨key, d⟩ := entry
      by_cases hk : key = (mode, name)
      · subst hk
        rw [List.filter_cons_of_neg (by simp), ih]
        by_cases h : mode' = mode ∧ other = name
        · rw [if_pos h, if_pos h]
        · have hne : ((mode', other) == (mode, name)) = false := by simpa using h
          rw [if_neg h, if_neg h, List.lookup_cons, hne]
      · rw [List.filter_cons_of_pos (by simpa using hk), List.lookup_cons, List.lookup_cons, ih]
        by_cases hkey : (mode', other) = key
        · subst hkey
          simp only [beq_self_eq_true]
          rw [if_neg (by simpa using hk)]
        · rw [beq_eq_false_iff_ne.mpr hkey]
  exact filtered r.entries

theorem get?_insert (r : Registry) (name other : String) (mode mode' : Mode) (d : Descriptor) :
    (r.insert name mode d).get? other mode' =
      if mode' = mode ∧ other = name then some d else r.get? other mode' := by
  have hrest := r.get?_erase name other mode mode'
  unfold get? at hrest
  unfold get? insert
  by_cases h : mode' = mode ∧ other = name
  · obtain ⟨rfl, rfl⟩ := h
    simp
  · have hne : ((mode', other) == (mode, name)) = false := by simpa using h
    rw [List.lookup_cons, hne, if_neg h]
    simpa [h] using hrest

/-- The descriptor stands under each of its names, and every other entry is as it was. -/
theorem get?_insertAll (r : Registry) (names : List String) (other : String) (mode mode' : Mode)
    (d : Descriptor) :
    (r.insertAll names mode d).get? other mode' =
      if mode' = mode ∧ other ∈ names then some { d with names, mode } else r.get? other mode' := by
  have fold : ∀ (ns : List String) (r : Registry) (d' : Descriptor),
      (ns.foldl (fun r name => r.insert name mode d') r).get? other mode' =
        if mode' = mode ∧ other ∈ ns then some d' else r.get? other mode' := by
    intro ns
    induction ns with
    | nil => simp
    | cons n ns ih =>
      intro r d'
      rw [List.foldl_cons, ih, get?_insert]
      by_cases hm : mode' = mode <;> by_cases hn : other = n <;> by_cases hs : other ∈ ns <;>
        simp [hm, hn, hs]
  exact fold names r _

/-- Tags whose names are all different are found under their names. -/
theorem get?_install (mode mode' : Mode) (name : String) (bs : List (List String × Descriptor))
    (hbs : (bs.flatMap Prod.fst).Nodup) (r : Registry) :
    (bs.foldl (fun r b => r.insertAll b.1 mode { b.2 with isProtected := true }) r).get?
        name mode' =
      if mode' = mode then
        ((bs.find? fun b => b.1.contains name).map fun b =>
          { b.2 with names := b.1, mode, isProtected := true }).or (r.get? name mode')
      else r.get? name mode' := by
  induction bs generalizing r with
  | nil => simp
  | cons b bs ih =>
    rw [List.flatMap_cons, List.nodup_append] at hbs
    obtain ⟨-, hrest, hdisjoint⟩ := hbs
    rw [List.foldl_cons, ih hrest, get?_insertAll]
    by_cases hm : mode' = mode
    · by_cases hb : name ∈ b.1
      · have hnone : bs.find? (fun b => b.1.contains name) = none := by
          rw [List.find?_eq_none]
          intro b' hb' hc
          exact hdisjoint name hb name (List.mem_flatMap.mpr ⟨b', hb', by simpa using hc⟩) rfl
        rw [hnone, List.find?_cons_of_pos (by simpa using hb)]
        simp [hm, hb]
      · rw [List.find?_cons_of_neg (by simpa using hb)]
        simp [hm, hb]
    · simp [hm]

/-- The registry begins with the built-in tags. -/
theorem get?_standard (name : String) (mode : Mode) :
    standard.get? name mode = builtIn? name mode := by
  have hnames : ∀ mode, ((builtins mode).flatMap Prod.fst).Nodup := by
    intro mode
    cases mode <;> decide
  have hinstall : ∀ (r : Registry) (m : Mode), (r.install m).get? name mode =
      if mode = m then (builtIn? name m).or (r.get? name mode) else r.get? name mode :=
    fun r m => get?_install m mode name (builtins m) (hnames m) r
  have hempty : empty.get? name mode = none := rfl
  unfold standard
  rw [hinstall, hinstall, hempty]
  cases mode <;> simp

/-! ### One call -/

theorem register_eq_ok_iff {r r' : Registry} {names : String} {mode : Mode} {d d' : Descriptor} :
    r.register names mode d = .ok (r', d') ↔
      refusal? (splitNames names) = none ∧
        d' = { d with names := splitNames names, mode, isProtected := false } ∧
        r' = r.insertAll (splitNames names) mode d' := by
  unfold register
  dsimp only
  split
  · next h => simp [h]
  · next h =>
    rw [Except.ok.injEq, Prod.mk.injEq]
    constructor
    · rintro ⟨rfl, rfl⟩
      exact ⟨h, rfl, rfl⟩
    · rintro ⟨-, rfl, rfl⟩
      exact ⟨rfl, rfl⟩

/-- A name is taken away exactly when an unprotected tag stands under it, which is the answer. -/
theorem unregister_eq_ok_iff {r r' : Registry} {name : String} {mode : Mode} {d : Descriptor} :
    r.unregister name mode = .ok (r', d) ↔
      r.get? name mode = some d ∧ d.isProtected = false ∧ r' = r.erase name mode := by
  unfold unregister
  split
  · next h => simp [h]
  · next d₀ h =>
    rw [h, Option.some.injEq]
    split
    · next hp =>
      refine ⟨nofun, ?_⟩
      rintro ⟨rfl, hd, -⟩
      rw [hp] at hd
      cases hd
    · next hp =>
      rw [Except.ok.injEq, Prod.mk.injEq]
      constructor
      · rintro ⟨rfl, rfl⟩
        exact ⟨rfl, by simpa using hp, rfl⟩
      · rintro ⟨rfl, -, rfl⟩
        exact ⟨rfl, rfl⟩

/-- A call that succeeds sets the entries that it touches and leaves all others. -/
theorem get?_of_perform {r r' : Registry} {c : Change} {d : Descriptor}
    (h : r.perform c = .ok (r', d)) (name : String) (mode : Mode) :
    r'.get? name mode = if c.touches name mode then c.entry? else r.get? name mode := by
  cases c with
  | register names m d₀ =>
    obtain ⟨-, rfl, rfl⟩ := register_eq_ok_iff.mp h
    rw [get?_insertAll]
    simp [Change.touches, Change.entry?, Change.mode, Change.names, eq_comm (a := mode)]
  | unregister n m =>
    obtain ⟨-, -, rfl⟩ := unregister_eq_ok_iff.mp h
    rw [get?_erase]
    simp [Change.touches, Change.entry?, Change.mode, Change.names, eq_comm (a := mode)]

theorem after_of_ok {r r' : Registry} {c : Change} {d : Descriptor}
    (h : r.perform c = .ok (r', d)) : r.after c = r' := by
  rw [after, h]

/-- A call that is refused changes nothing. -/
theorem after_of_error {r : Registry} {c : Change} {e : Error} (h : r.perform c = .error e) :
    r.after c = r := by
  rw [after, h]

/-- A call changes no entry that it does not touch. -/
theorem get?_after {r : Registry} {c : Change} {name : String} {mode : Mode}
    (h : c.touches name mode = false) : (r.after c).get? name mode = r.get? name mode := by
  cases hc : r.perform c with
  | error e => rw [after_of_error hc]
  | ok x =>
    obtain ⟨r', d⟩ := x
    rw [after_of_ok hc, get?_of_perform hc, h]
    rfl

/-- A call leads from a reachable registry to a reachable one. -/
theorem Reachable.after {r : Registry} (h : r.Reachable) (c : Change) : (r.after c).Reachable := by
  cases hc : r.perform c with
  | error e => rwa [after_of_error hc]
  | ok x =>
    obtain ⟨r', d⟩ := x
    rw [after_of_ok hc]
    cases c with
    | register names mode d₀ => exact h.register hc
    | unregister name mode => exact h.unregister hc

/-! ### Histories -/

theorem replay_concat (history : List Change) (c : Change) :
    replay (history ++ [c]) = (replay history).after c := by
  simp [replay]

theorem reachable_replay (history : List Change) : (replay history).Reachable := by
  induction history using List.reverseRecOn with
  | nil => exact .standard
  | append_singleton history c ih =>
    rw [replay_concat]
    exact ih.after c

/-- The last call of a history succeeds or it does not. -/
theorem accepted_concat (r : Registry) (history : List Change) (c : Change) :
    accepted r (history ++ [c]) =
      accepted r history ++
        match (history.foldl after r).perform c with
        | .ok _ => [c]
        | .error _ => [] := by
  induction history generalizing r with
  | nil =>
    simp only [List.nil_append, accepted, List.foldl_nil]
    split <;> simp_all
  | cons b history ih =>
    rw [List.cons_append, accepted, accepted, List.foldl_cons]
    cases hb : r.perform b with
    | error e => rw [after_of_error hb]; exact ih r
    | ok x =>
      obtain ⟨r', d⟩ := x
      rw [after_of_ok hb]
      simp only [List.cons_append, ih r']

/-- A call that is refused decides nothing. -/
theorem decided_concat_of_error {history : List Change} {c : Change} {e : Error}
    (h : (replay history).perform c = .error e) :
    decided (history ++ [c]) = decided history := by
  funext name mode
  rw [decided, accepted_concat, ← replay, h, List.append_nil, decided]

/-- A call that succeeds decides the entries that it touches. -/
theorem decided_concat_of_ok {history : List Change} {c : Change} {x : Registry × Descriptor}
    (h : (replay history).perform c = .ok x) (name : String) (mode : Mode) :
    decided (history ++ [c]) name mode =
      if c.touches name mode then c.entry? else decided history name mode := by
  rw [decided, accepted_concat, ← replay, h, List.reverse_append, decided]
  cases ht : c.touches name mode <;> simp [ht]

/-- The registry has under every name what its history decides. -/
theorem get?_replay (history : List Change) (name : String) (mode : Mode) :
    (replay history).get? name mode = decided history name mode := by
  induction history using List.reverseRecOn with
  | nil => exact get?_standard name mode
  | append_singleton history c ih =>
    rw [replay_concat]
    cases hc : (replay history).perform c with
    | error e => rw [after_of_error hc, decided_concat_of_error hc, ih]
    | ok x =>
      obtain ⟨r', d⟩ := x
      rw [after_of_ok hc, get?_of_perform hc, decided_concat_of_ok hc, ih]

/-- A built-in tag lists the name and the dialect that it stands under. -/
theorem lists_of_builtIn? {name : String} {mode : Mode} {d : Descriptor}
    (h : builtIn? name mode = some d) : name ∈ d.names ∧ d.mode = mode := by
  obtain ⟨b, hb, rfl⟩ := Option.map_eq_some_iff.mp h
  exact ⟨by simpa using List.find?_some hb, rfl⟩

/-- A call puts a tag only under the names and the dialect that the tag lists, unprotected. -/
theorem lists_of_entry? {c : Change} {name : String} {mode : Mode} {d : Descriptor}
    (ht : c.touches name mode = true) (h : c.entry? = some d) :
    (name ∈ d.names ∧ d.mode = mode) ∧ d.isProtected = false := by
  cases c with
  | unregister n m => cases h
  | register names m d₀ =>
    cases h
    simp only [Change.touches, Change.mode, Change.names, Bool.and_eq_true, beq_iff_eq,
      List.contains_iff_mem] at ht
    exact ⟨⟨ht.2, ht.1⟩, rfl⟩

/-- An entry lists its name and its dialect, and a protected one is a built-in tag. -/
theorem lists_of_get?_replay {history : List Change} {name : String} {mode : Mode} {d : Descriptor}
    (h : (replay history).get? name mode = some d) :
    (name ∈ d.names ∧ d.mode = mode) ∧ (d.isProtected = true → builtIn? name mode = some d) := by
  rw [get?_replay, decided] at h
  split at h
  · next c hc =>
    obtain ⟨hl, hp⟩ := lists_of_entry? (List.find?_some hc) h
    refine ⟨hl, fun ht => ?_⟩
    rw [hp] at ht
    cases ht
  · exact ⟨lists_of_builtIn? h, fun _ => h⟩

/-- **A registry is a finite map with protected initial entries.**  After every history: the entry
of a name is decided by the last call that touched it and succeeded, and is the built-in tag if none
did; one call more changes nothing if it is refused, and no entry of the other dialect; every entry
lists its name and dialect, and only built-in tags are protected; a name can be taken away exactly
when an unprotected tag stands under it, and that is the answer; and no name begins with `end`. -/
theorem replay_refines (history : List Change) :
    (∀ name mode, (replay history).get? name mode = decided history name mode) ∧
      (∀ c e, (replay history).perform c = .error e →
        ∀ name mode, (replay (history ++ [c])).get? name mode = (replay history).get? name mode) ∧
      (∀ c : Change, ∀ name mode, mode ≠ c.mode →
        (replay (history ++ [c])).get? name mode = (replay history).get? name mode) ∧
      (∀ name mode d, (replay history).get? name mode = some d →
        (name ∈ d.names ∧ d.mode = mode) ∧ (d.isProtected = true → builtIn? name mode = some d)) ∧
      (∀ name mode d, (∃ r, (replay history).perform (.unregister name mode) = .ok (r, d)) ↔
        (replay history).get? name mode = some d ∧ d.isProtected = false) ∧
      ∀ opener mode, (replay history).get? ("end" ++ opener) mode = none := by
  refine ⟨get?_replay history, ?_, ?_, fun _ _ _ => lists_of_get?_replay, ?_, ?_⟩
  · intro c e hc name mode
    rw [replay_concat, after_of_error hc]
  · intro c name mode hm
    rw [replay_concat, get?_after]
    simp [Change.touches, hm.symm]
  · intro name mode d
    constructor
    · rintro ⟨r, hr⟩
      obtain ⟨hd, hp, -⟩ := unregister_eq_ok_iff.mp hr
      exact ⟨hd, hp⟩
    · rintro ⟨hd, hp⟩
      exact ⟨_, unregister_eq_ok_iff.mpr ⟨hd, hp, rfl⟩⟩
  · exact fun opener mode => (reachable_replay history).get?_end opener mode

end Registry

end TemplateEngine.Tag
