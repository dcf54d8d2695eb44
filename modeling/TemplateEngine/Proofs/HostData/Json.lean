import TemplateEngine.HostData.Json
import TemplateEngine.Proofs.HostData.Entries

/-!
# JSON values there and back

A JSON value becomes a value, and the value is read as that JSON value (`Json.decode_toValue`).
What JSON cannot write is left out (`Json.WellFormed`): numbers that are not finite, and objects
with two fields of one name.
-/

namespace TemplateEngine

namespace Json

/-- The fields of every object have different names, and every number is finite. -/
inductive WellFormed : Json → Prop where
  | null : WellFormed .null
  | bool (b : Bool) : WellFormed (.bool b)
  | int (i : Int64) : WellFormed (.int i)
  | float {x : Binary64} (h : x.isFinite = true) : WellFormed (.float x)
  | str (s : String) : WellFormed (.str s)
  | array {items : List Json} (h : ∀ j ∈ items, WellFormed j) : WellFormed (.array items)
  | object {fields : List (String × Json)} (names : (fields.map Prod.fst).Nodup)
      (h : ∀ field ∈ fields, WellFormed field.2) : WellFormed (.object fields)

theorem toData_eq (items : List Json) : toData items = items.map toDatum := by
  induction items with
  | nil => rfl
  | cons j items ih => rw [toData, ih, List.map_cons]

theorem toSides_eq (fields : List (String × Json)) :
    toSides fields = (fields.map fun field => (field.1, field.2.toDatum)).flatMap fun field =>
      [(.key, .str field.1), (.value, field.2)] := by
  induction fields with
  | nil => rfl
  | cons field fields ih =>
    obtain ⟨name, j⟩ := field
    rw [toSides, ih]
    rfl

/-- An integer that is not negative comes back from a word without a sign. -/
theorem toValue_int (i : Int64) : (toDatum (.int i)).toValue = .ok (.int i) := by
  rw [toDatum]
  split
  · next h =>
    have hsign : 0 ≤ i.toInt := by simpa [Int64.le_iff_toInt_le] using h
    have hword : (i.toUInt64.toNat : Int) = i.toInt := by
      rw [Int64.toNat_toUInt64_of_le h, ← Int64.toNat_toInt, Int.toNat_of_nonneg hsign]
    rw [Datum.toValue, Datum.natValue, hword, Number.fit?_toInt]
  · rfl

theorem decodeAll_eq (vs : List Value) : decodeAll vs = vs.mapM decode := by
  induction vs with
  | nil => rfl
  | cons v vs ih => rw [decodeAll, ih, List.mapM_cons]

theorem decodeAll_map {f : Json → Value} {items : List Json}
    (h : ∀ j ∈ items, decode (f j) = .ok j) : decodeAll (items.map f) = .ok items := by
  rw [decodeAll_eq, List.mapM_map]
  exact (mapM_eq_ok h).trans (by rw [List.map_id'])

theorem decodeEntries_named {f : String × Json → Value} {fields : List (String × Json)}
    (h : ∀ field ∈ fields, decode (f field) = .ok field.2) (first : Bool) :
    decodeEntries first (Value.named (fields.map fun field => (field.1, f field))) =
      .ok fields := by
  induction fields generalizing first with
  | nil => rfl
  | cons field fields ih =>
    obtain ⟨name, j⟩ := field
    rw [List.forall_mem_cons] at h
    rw [List.map_cons, Value.named_cons, decodeEntries, h.1, ih h.2]
    rfl

/-- The JSON value becomes the value, which is read as the JSON value. -/
def Stands (j : Json) (v : Value) : Prop := j.toDatum.toValue = .ok v ∧ decode v = .ok j

theorem exists_stands_array {items : List Json} (h : ∀ j ∈ items, ∃ v, Stands j v) :
    ∃ v, Stands (.array items) v := by
  choose! f hf using h
  refine ⟨.list (items.map f), ?_, ?_⟩
  · rw [toDatum, toData_eq, Datum.toValue, Datum.toValues_map fun j hj => (hf j hj).1]
    rfl
  · rw [decode, decodeAll_map fun j hj => (hf j hj).2]
    rfl

theorem exists_stands_object {fields : List (String × Json)} (hn : (fields.map Prod.fst).Nodup)
    (h : ∀ field ∈ fields, ∃ v, Stands field.2 v) : ∃ v, Stands (.object fields) v := by
  choose! f hf using h
  let values := fields.map fun field => (field.1, f field)
  have hbecome : List.Forall₂ (fun d v => d.1 = v.1 ∧ d.2.toValue = .ok v.2)
      (fields.map fun field => (field.1, field.2.toDatum)) values := by
    refine List.forall₂_map_left_iff.mpr (List.forall₂_map_right_iff.mpr ?_)
    exact List.forall₂_same.mpr fun field hmem => ⟨rfl, (hf field hmem).1⟩
  have hnames : (values.map Prod.fst).Nodup := by simpa [values, Function.comp_def] using hn
  refine ⟨.dict (Value.named values), ?_, ?_⟩
  · -- keys are texts, so the object is read like the record of its fields
    have hrecord := Datum.toValue_record hbecome hnames
    rw [Datum.toValue] at hrecord
    rw [toDatum, toSides_eq, Datum.toValue, Datum.mapEntries_named]
    exact hrecord
  · rw [decode, decodeEntries_named fun field hmem => (hf field hmem).2]
    rfl

/-- A well-formed JSON value becomes a value, which is read as that JSON value, with the fields of
its objects in their order. -/
theorem decode_toValue {j : Json} (h : j.WellFormed) :
    ∃ v, j.toDatum.toValue = .ok v ∧ decode v = .ok j := by
  induction h with
  | null => exact ⟨.nil, rfl, rfl⟩
  | bool b => exact ⟨.bool b, rfl, rfl⟩
  | int i => exact ⟨.int i, toValue_int i, rfl⟩
  | @float x hx =>
    refine ⟨.float x, rfl, ?_⟩
    rw [decode, if_pos hx]
  | str s => exact ⟨.str s, rfl, rfl⟩
  | array _ ih => exact exists_stands_array ih
  | object names _ ih => exact exists_stands_object names ih

theorem decode_toValue_nested :
    (object [("b", array [int (-3), float (.ofInt 2)]), ("a", object [("", null)])]).WellFormed ∧
    ∃ v, (object [("b", array [int (-3), float (.ofInt 2)]),
        ("a", object [("", null)])]).toDatum.toValue = .ok v ∧
      decode v = .ok (object [("b", array [int (-3), float (.ofInt 2)]),
        ("a", object [("", null)])]) := by
  have hitems : (array [int (-3), float (.ofInt 2)]).WellFormed :=
    .array (by simpa using ⟨.int _, .float (by decide)⟩)
  have hfields : (object [("", null)]).WellFormed := .object (by decide) (by simpa using .null)
  have hnames : (([("b", array [int (-3), float (.ofInt 2)]), ("a", object [("", null)])] :
      List (String × Json)).map Prod.fst).Nodup := by decide
  have h := WellFormed.object hnames (by simpa using ⟨hitems, hfields⟩)
  exact ⟨h, decode_toValue h⟩

end Json

end TemplateEngine
