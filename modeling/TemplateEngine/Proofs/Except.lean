import TemplateEngine.Error

/-!
# Results that are no errors

A computation that may fail gives a result when all of its steps do.
-/

namespace TemplateEngine

variable {ε α β : Type}

theorem exists_of_isOk {x : Except ε α} (h : x.isOk = true) : ∃ a, x = .ok a := by
  cases x with
  | error e => cases h
  | ok a => exact ⟨a, rfl⟩

theorem bind_eq_ok_iff {x : Except ε α} {f : α → Except ε β} {b : β} :
    x >>= f = .ok b ↔ ∃ a, x = .ok a ∧ f a = .ok b := by
  cases x with
  | error e => simp [Bind.bind, Except.bind]
  | ok a => simp [Bind.bind, Except.bind]

theorem map_eq_ok_iff {x : Except ε α} {f : α → β} {b : β} :
    x.map f = .ok b ↔ ∃ a, x = .ok a ∧ f a = b := by
  cases x with
  | error e => simp [Except.map]
  | ok a => simp [Except.map]

/-- Steps that all have results have these results. -/
theorem mapM_eq_ok {f : α → Except ε β} {g : α → β} {xs : List α}
    (h : ∀ x ∈ xs, f x = .ok (g x)) : xs.mapM f = .ok (xs.map g) := by
  induction xs with
  | nil => rfl
  | cons x xs ih =>
    rw [List.forall_mem_cons] at h
    rw [List.mapM_cons, h.1, ih h.2]
    rfl

/-- A step of a fold that has a result. -/
theorem foldlM_cons_ok {f : β → α → Except ε β} {b b' : β} {x : α} (h : f b x = .ok b')
    (xs : List α) : (x :: xs).foldlM f b = xs.foldlM f b' := by
  rw [List.foldlM_cons, h]
  rfl

/-! ### What every result is -/

/-- Every result is one of these. -/
def Ensures (P : α → Prop) (x : Except ε α) : Prop := ∀ a, x = .ok a → P a

@[simp] theorem ensures_ok_iff {P : α → Prop} {a : α} : Ensures P (.ok a : Except ε α) ↔ P a :=
  ⟨fun h => h a rfl, fun h _ e => Except.ok.inj e ▸ h⟩

@[simp] theorem ensures_pure_iff {P : α → Prop} {a : α} : Ensures P (pure a : Except ε α) ↔ P a :=
  ensures_ok_iff

@[simp] theorem ensures_fail (P : α → Prop) (f : RenderFault) : Ensures P (fail f) := nofun

theorem Ensures.bind {P : α → Prop} {Q : β → Prop} {x : Except ε α} {f : α → Except ε β}
    (hx : Ensures P x) (hf : ∀ a, P a → Ensures Q (f a)) : Ensures Q (x >>= f) := by
  intro b h
  obtain ⟨a, ha, hb⟩ := bind_eq_ok_iff.mp h
  exact hf a (hx a ha) b hb

/-- The results of the last step are the results. -/
theorem ensures_bind {Q : β → Prop} {x : Except ε α} {f : α → Except ε β}
    (hf : ∀ a, Ensures Q (f a)) : Ensures Q (x >>= f) :=
  Ensures.bind (P := fun _ => True) (fun _ _ => trivial) fun a _ => hf a

theorem Ensures.map {P : α → Prop} {Q : β → Prop} {x : Except ε α} {f : α → β}
    (hx : Ensures P x) (hf : ∀ a, P a → Q (f a)) : Ensures Q (x.map f) := by
  intro b h
  obtain ⟨a, ha, rfl⟩ := map_eq_ok_iff.mp h
  exact hf a (hx a ha)

theorem ensures_map {Q : β → Prop} {x : Except ε α} {f : α → β} (hf : ∀ a, Q (f a)) :
    Ensures Q (x.map f) :=
  Ensures.map (P := fun _ => True) (fun _ _ => trivial) fun a _ => hf a

theorem Ensures.imp {P Q : α → Prop} {x : Except ε α} (hx : Ensures P x) (h : ∀ a, P a → Q a) :
    Ensures Q x :=
  fun a ha => h a (hx a ha)

theorem ensures_mapM {P : β → Prop} {f : α → Except ε β} {xs : List α}
    (h : ∀ x ∈ xs, Ensures P (f x)) : Ensures (fun ys => ∀ y ∈ ys, P y) (xs.mapM f) := by
  induction xs with
  | nil => exact ensures_pure_iff.mpr (List.forall_mem_nil _)
  | cons x xs ih =>
    rw [List.forall_mem_cons] at h
    rw [List.mapM_cons]
    refine h.1.bind fun y hy => (ih h.2).bind fun ys hys => ?_
    exact ensures_pure_iff.mpr (List.forall_mem_cons.mpr ⟨hy, hys⟩)

theorem ensures_foldlM {P : β → Prop} {f : β → α → Except ε β} {xs : List α} {b : β} (hb : P b)
    (h : ∀ b, P b → ∀ x ∈ xs, Ensures P (f b x)) : Ensures P (xs.foldlM f b) := by
  induction xs generalizing b with
  | nil => exact ensures_pure_iff.mpr hb
  | cons x xs ih =>
    rw [List.foldlM_cons]
    refine (h b hb x (by simp)).bind fun b' hb' => ih hb' fun c hc y hy => h c hc y (by simp [hy])

end TemplateEngine
