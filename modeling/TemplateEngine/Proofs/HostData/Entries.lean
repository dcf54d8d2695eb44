import TemplateEngine.HostData.Datum
import TemplateEngine.Proofs.Except
import TemplateEngine.Proofs.Value.Literal

/-!
# Containers of host data

What sequences, records and maps become, from what their contents become.  A map whose keys are
texts is read like a record (`Datum.mapEntries_named`), and the fields of a record are inserted one
after the other (`Datum.fieldEntries_eq`), which changes nothing when their names are different
(`Value.insertAll_named`).
-/

namespace TemplateEngine

variable {α : Type}

namespace Value

/-- Entries under names. -/
def named (fields : List (String × Value)) : List (Value × Value) :=
  fields.map fun field => (.str field.1, field.2)

@[simp] theorem named_cons (name : String) (v : Value) (fields : List (String × Value)) :
    named ((name, v) :: fields) = (.str name, v) :: named fields := rfl

/-- Entries under different names are all kept, in their order. -/
theorem insertAll_named {fields : List (String × Value)} (h : (fields.map Prod.fst).Nodup) :
    insertAll [] (named fields) = named fields := by
  have hkeys : (named fields).Pairwise fun e f => f.1.equals e.1 = false := by
    refine List.pairwise_map.mpr ((List.pairwise_map.mp h).imp fun hne => ?_)
    simpa [equals] using hne.symm
  exact insertAll_of_pairwise [] hkeys

end Value

namespace Datum

theorem toValues_eq (ds : List Datum) : toValues ds = ds.mapM toValue := by
  induction ds with
  | nil => rfl
  | cons d ds ih => rw [toValues, ih, List.mapM_cons]

theorem toValues_map {d : α → Datum} {f : α → Value} {xs : List α}
    (h : ∀ x ∈ xs, (d x).toValue = .ok (f x)) : toValues (xs.map d) = .ok (xs.map f) := by
  rw [toValues_eq, List.mapM_map]
  exact mapM_eq_ok h

/-- The fields of a record are inserted in their order. -/
theorem fieldEntries_eq {fields : List (String × Datum)} {values : List (String × Value)}
    (h : List.Forall₂ (fun d v => d.1 = v.1 ∧ d.2.toValue = .ok v.2) fields values)
    (es : List (Value × Value)) :
    fieldEntries es fields = .ok (Value.insertAll es (Value.named values)) := by
  induction h generalizing es with
  | nil => rfl
  | @cons d v fields values hd _ ih =>
    obtain ⟨name, d⟩ := d
    obtain ⟨rfl, hd⟩ := hd
    rw [fieldEntries, hd]
    exact ih _

/-- A record whose fields have different names becomes the dict of its fields. -/
theorem toValue_record {fields : List (String × Datum)} {values : List (String × Value)}
    (h : List.Forall₂ (fun d v => d.1 = v.1 ∧ d.2.toValue = .ok v.2) fields values)
    (hn : (values.map Prod.fst).Nodup) :
    (record fields).toValue = .ok (.dict (Value.named values)) := by
  rw [toValue, fieldEntries_eq h, Value.insertAll_named hn]
  rfl

/-- A map whose keys are texts is read like a record. -/
theorem mapEntries_named (fields : List (String × Datum)) (es : List (Value × Value)) :
    mapEntries none es (fields.flatMap fun field => [(.key, .str field.1), (.value, field.2)]) =
      fieldEntries es fields := by
  induction fields generalizing es with
  | nil => rfl
  | cons field fields ih =>
    obtain ⟨name, d⟩ := field
    rw [List.flatMap_cons, List.cons_append, mapEntries, toValue, fieldEntries]
    cases hd : d.toValue with
    | error e => simp [mapEntries, hd, Bind.bind, Except.bind, Value.isHashable]
    | ok v =>
      have hrest := ih (Value.insertEntry (.str name) v es)
      simpa [mapEntries, hd, Bind.bind, Except.bind, Value.isHashable] using hrest

end Datum

end TemplateEngine
