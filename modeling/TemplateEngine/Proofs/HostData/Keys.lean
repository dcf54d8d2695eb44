import TemplateEngine.HostData.Datum
import TemplateEngine.Proofs.Value.Keys

/-!
# Elements and keys of host data

A key that is not hashable is refused, so what host data becomes is well keyed
(`Datum.ensures_toValue`).
-/

namespace TemplateEngine
open Value

namespace Datum

mutual

/-- What host data becomes is well keyed. -/
theorem ensures_toValue : ∀ d : Datum, Ensures WellKeyed d.toValue
  | .unit | .absent | .unitRecord => by
    simp [toValue]
  | .bool _ | .int _ | .float _ | .char _ | .str _ | .variant _ => by
    simp [toValue]
  | .nat n => by
    rw [toValue, natValue]
    split <;> simp
  | .bytes bs => by
    rw [toValue]
    exact ensures_ok_iff.mpr (wellKeyed_list.mpr
      (List.forall_mem_map.mpr fun _ _ => wellKeyed_int _))
  | .present d | .wrapped d | .wrappedVariant _ d => by
    rw [toValue]
    exact ensures_toValue d
  | .seq items => by
    rw [toValue]
    exact (ensures_toValues items).bind fun xs hxs => ensures_pure_iff.mpr (wellKeyed_list.mpr hxs)
  | .tuple items => by
    rw [toValue]
    exact (ensures_toValues items).bind fun xs hxs => ensures_pure_iff.mpr (wellKeyed_tuple.mpr hxs)
  | .map sides => by
    rw [toValue]
    exact (ensures_mapEntries sides none (by simp) [] (List.forall_mem_nil _)).bind fun es hes =>
      ensures_pure_iff.mpr (wellKeyed_dict.mpr hes)
  | .record fields => by
    rw [toValue]
    exact (ensures_fieldEntries fields [] (List.forall_mem_nil _)).bind fun es hes =>
      ensures_pure_iff.mpr (wellKeyed_dict.mpr hes)

theorem ensures_toValues : ∀ ds : List Datum,
    Ensures (fun xs => ∀ x ∈ xs, x.WellKeyed) (toValues ds)
  | [] => ensures_ok_iff.mpr (List.forall_mem_nil _)
  | d :: ds => by
    rw [toValues]
    exact (ensures_toValue d).bind fun v hv => (ensures_toValues ds).bind fun vs hvs =>
      ensures_pure_iff.mpr (List.forall_mem_cons.mpr ⟨hv, hvs⟩)

/-- A key that is not hashable is refused before its value. -/
theorem ensures_mapEntries : ∀ (sides : List (MapSide × Datum)) (key : Option Value),
    (∀ k, key = some k → k.isHashable = true ∧ k.WellKeyed) →
    ∀ es, EntriesWellKeyed es → Ensures EntriesWellKeyed (mapEntries key es sides)
  | [], _, _, es, hes => ensures_ok_iff.mpr hes
  | (.key, d) :: sides, _, _, es, hes => by
    rw [mapEntries]
    refine (ensures_toValue d).bind fun k hk => ?_
    split
    · next hh =>
      exact ensures_mapEntries sides (some k) (fun _ h => Option.some.inj h ▸ ⟨hh, hk⟩) es hes
    · exact ensures_fail _ _
  | (.value, d) :: sides, key, hkey, es, hes => by
    rw [mapEntries]
    refine (ensures_toValue d).bind fun v hv => ?_
    split
    · next k => exact ensures_mapEntries sides none (by simp) _ (hes.insert (hkey k rfl) hv)
    · exact ensures_fail _ _

theorem ensures_fieldEntries : ∀ (fields : List (String × Datum)) (es : List (Value × Value)),
    EntriesWellKeyed es → Ensures EntriesWellKeyed (fieldEntries es fields)
  | [], es, hes => ensures_ok_iff.mpr hes
  | (name, d) :: fields, es, hes => by
    rw [fieldEntries]
    exact (ensures_toValue d).bind fun v hv =>
      ensures_fieldEntries fields _ (hes.insert ⟨rfl, wellKeyed_str name⟩ hv)

end

end Datum

end TemplateEngine
