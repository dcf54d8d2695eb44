import TemplateEngine.HostData.Account
import TemplateEngine.Proofs.HostData.Entries

/-!
# Accounts there and back

An account becomes a value, and the value is read as that account, unless its role has a content
(`Account.decode_toValue_by_role`).  The role then becomes the bare content, which is not the name
of a role.
-/

namespace TemplateEngine

namespace Decode

variable {α : Type} {decode : Decoder α} {value : α → Value}

theorem string_str (s : String) : string (.str s) = .ok s := rfl

theorem list_map (h : ∀ a, decode (value a) = .ok a) (as : List α) :
    list decode (.list (as.map value)) = .ok as := by
  change (as.map value).mapM decode = .ok as
  rw [List.mapM_map]
  exact (mapM_eq_ok fun a _ => h a).trans (by rw [List.map_id'])

theorem option_elim (h : ∀ a, decode (value a) = .ok a) (hnil : ∀ a, value a ≠ .nil)
    (a? : Option α) : option decode (a?.elim .nil value) = .ok a? := by
  cases a? with
  | none => rfl
  | some a =>
    rw [Option.elim, option, h]
    · rfl
    · exact hnil a

/-- The first field is read before the others. -/
theorem fields_named_cons (read : α → String → Value → Except Error α) (start : α) (name : String)
    (v : Value) (fs : List (String × Value)) :
    fields read start (Value.named ((name, v) :: fs)) =
      (read start name v).bind fun a => fields read a (Value.named fs) := rfl

end Decode

namespace AccountRole

/-- The value that a role becomes. -/
def value : AccountRole → Value
  | .admin => .str "Admin"
  | .guest => .str "Guest"
  | .team number => .int number

theorem toValue_toDatum (role : AccountRole) : role.toDatum.toValue = .ok role.value := by
  cases role <;> rfl

/-- A role is known by its name, which a role with a content has lost. -/
theorem decode_value (role : AccountRole) :
    decode role.value = match role with
      | .admin | .guest => .ok role
      | .team _ => Decode.fault (.notAVariantName "int") := by
  cases role <;> rfl

end AccountRole

namespace Account

/-- The fields of an account as values. -/
def values (a : Account) : List (String × Value) :=
  [("id", .int a.id), ("name", .str a.name), ("score", .float a.score), ("role", a.role.value),
    ("email", a.email.elim .nil .str), ("tags", .list (a.tags.map .str))]

theorem toValue_toDatum (a : Account) : a.toDatum.toValue = .ok (.dict (Value.named a.values)) := by
  have hemail : (a.email.elim .absent fun s => .present (.str s) : Datum).toValue =
      .ok (a.email.elim .nil .str) := by
    cases a.email <;> rfl
  have htags : (Datum.seq (a.tags.map .str)).toValue = .ok (.list (a.tags.map .str)) := by
    rw [Datum.toValue, Datum.toValues_map fun _ _ => rfl]
    rfl
  have hnames : ["id", "name", "score", "role", "email", "tags"].Nodup := by decide
  refine Datum.toValue_record ?_ hnames
  exact .cons ⟨rfl, rfl⟩ <| .cons ⟨rfl, rfl⟩ <| .cons ⟨rfl, rfl⟩ <|
    .cons ⟨rfl, a.role.toValue_toDatum⟩ <| .cons ⟨rfl, hemail⟩ <| .cons ⟨rfl, htags⟩ .nil

/-- Only the role may fail to be read. -/
theorem decode_values (a : Account) :
    decode (.dict (Value.named a.values)) =
      (AccountRole.decode a.role.value).map fun role => { a with role := role } := by
  have hemail : Decode.option Decode.string (a.email.elim .nil .str) = .ok a.email :=
    Decode.option_elim Decode.string_str (by simp) _
  have htags : Decode.list Decode.string (.list (a.tags.map .str)) = .ok a.tags :=
    Decode.list_map Decode.string_str _
  change (Decode.fields Draft.read Draft.empty (Value.named a.values)).bind Draft.finish = _
  simp only [values, Decode.fields_named_cons, Draft.read, Decode.int, Decode.string, Decode.float,
    hemail, htags, bind, Except.bind, pure, Except.pure]
  cases AccountRole.decode a.role.value <;> rfl

/-- An account becomes a value.  It is read as that account when its role is a bare name; the
content of a role is not taken for one. -/
theorem decode_toValue_by_role (a : Account) :
    ∃ v, a.toDatum.toValue = .ok v ∧ decode v = match a.role with
      | .admin | .guest => .ok a
      | .team _ => Decode.fault (.notAVariantName "int") := by
  refine ⟨_, a.toValue_toDatum, ?_⟩
  rw [a.decode_values, a.role.decode_value]
  cases hrole : a.role <;> simp [Except.map, Decode.fault, fail, ← hrole]

/-- An account whose role has a content does not come back. -/
theorem not_decode_toValue_team :
    ¬ ∀ a : Account, a.score.isNaN = false → ∃ v, a.toDatum.toValue = .ok v ∧ decode v = .ok a := by
  intro h
  obtain ⟨v, hv, hback⟩ := h ⟨7, "bob", .ofInt 9, .team 3, none, ["x", "y"]⟩ (by decide)
  rw [toValue_toDatum] at hv
  cases hv
  rw [decode_values] at hback
  cases hback

end Account

end TemplateEngine
