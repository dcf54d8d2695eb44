import TemplateEngine.HostData.Datum
import TemplateEngine.HostData.Decode

/-!
# Accounts

A host record with fields of every sort: the example of a record that goes to templates and comes
back.
-/

namespace TemplateEngine

/-- The role of an account. -/
inductive AccountRole where
  | admin
  | guest
  | team (number : Int64)
deriving DecidableEq

/-- An account. -/
structure Account where
  id : Int64
  name : String
  score : Binary64
  role : AccountRole
  email : Option String
  tags : List String
deriving DecidableEq

namespace AccountRole

/-- A role as host data. -/
def toDatum : AccountRole → Datum
  | .admin => .variant "Admin"
  | .guest => .variant "Guest"
  | .team n => .wrappedVariant "Team" (.int n)

/-- A role by its name; a name alone does not give the content that a team has. -/
def decode : Decoder AccountRole := fun v => do
  let name ← Decode.variantName ["Admin", "Guest", "Team"] v
  if name = "Admin" then return .admin
  else if name = "Guest" then return .guest
  else Decode.fault (.invalidType "unit variant" "newtype variant")

end AccountRole

namespace Account

/-- An account as host data. -/
def toDatum (a : Account) : Datum :=
  .record [
    ("id", .int a.id),
    ("name", .str a.name),
    ("score", .float a.score),
    ("role", a.role.toDatum),
    ("email", a.email.elim .absent fun s => .present (.str s)),
    ("tags", .seq (a.tags.map .str))]

/-- The fields of an account that have been read. -/
structure Draft where
  id : Option Int64
  name : Option String
  score : Option Binary64
  role : Option AccountRole
  email : Option (Option String)
  tags : Option (List String)

/-- No field read yet. -/
def Draft.empty : Draft := ⟨none, none, none, none, none, none⟩

/-- One field more; fields of other names are passed over. -/
def Draft.read (d : Draft) (name : String) (v : Value) : Except Error Draft :=
  match name with
  | "id" => do return { d with id := some (← Decode.int v) }
  | "name" => do return { d with name := some (← Decode.string v) }
  | "score" => do return { d with score := some (← Decode.float v) }
  | "role" => do return { d with role := some (← AccountRole.decode v) }
  | "email" => do return { d with email := some (← Decode.option Decode.string v) }
  | "tags" => do return { d with tags := some (← Decode.list Decode.string v) }
  | _ => .ok d

/-- The account, when every field is there; only the email may be missing. -/
def Draft.finish (d : Draft) : Except Error Account := do
  let id ← Decode.required "id" d.id
  let name ← Decode.required "name" d.name
  let score ← Decode.required "score" d.score
  let role ← Decode.required "role" d.role
  let email := d.email.getD none
  let tags ← Decode.required "tags" d.tags
  return ⟨id, name, score, role, email, tags⟩

/-- The account whose fields stand in a sequence in order. -/
def ofItems (xs : List Value) : Except Error Account := do
  let expected := "struct Account with 6 elements"
  let id ← Decode.itemAt expected xs 0 Decode.int
  let name ← Decode.itemAt expected xs 1 Decode.string
  let score ← Decode.itemAt expected xs 2 Decode.float
  let role ← Decode.itemAt expected xs 3 AccountRole.decode
  let email ← Decode.itemAt expected xs 4 (Decode.option Decode.string)
  let tags ← Decode.itemAt expected xs 5 (Decode.list Decode.string)
  return ⟨id, name, score, role, email, tags⟩

/-- A value as an account, by field or by position. -/
def decode : Decoder Account := fun v =>
  match Decode.items? v, v with
  | some xs, _ => ofItems xs
  | none, .dict es => do (← Decode.fields Draft.read Draft.empty es).finish
  | none, v => Decode.wrongType "struct Account" v

end Account

end TemplateEngine
