/-
  Reading records from TOML values. The entries of a table are checked in the order in which they
  are written, and an unknown key is refused where it stands; only then are the fields taken that
  every record needs. An array is read as a record too, with its items in the order of the fields.
-/
import PackagePlan.Catalog
import PackagePlan.Toml.Fault
import PackagePlan.Toml.Value

namespace PackagePlan.Toml

/-- A decoder reads a value of a type from a TOML value. -/
abbrev Decoder (α : Type) := Value → Except Fault α

/-- A text. -/
def text : Decoder String
  | .string value => .ok value
  | _ => .error .mismatch

/-- A truth value. -/
def flag : Decoder Bool
  | .bool value => .ok value
  | _ => .error .mismatch

/-- A list whose items all have one type. -/
def listOf {α : Type} (item : Decoder α) : Decoder (List α)
  | .array items => items.mapM item
  | _ => .error .mismatch

/-- Read the values of a table and keep the keys. -/
def entriesOf {α : Type} (item : Decoder α) : Table → Except Fault (List (String × α))
  | [] => .ok []
  | (name, value) :: rest => do
    let value ← item value
    let rest ← entriesOf item rest
    return (name, value) :: rest

/-- A table whose values all have one type. -/
def catalogOf {α : Type} (item : Decoder α) : Decoder (Catalog String α) := fun value =>
  match value.entries? with
  | some entries => (entriesOf item entries).map Catalog.ofList
  | none => .error .mismatch

/-- A field of a record: its name, and the check that its value has to pass. -/
structure Field where
  name : String
  check : Decoder Unit

/-- The field with a name whose value a decoder reads. -/
def field {α : Type} (name : String) (decode : Decoder α) : Field :=
  ⟨name, fun value => (decode value).map fun _ => ()⟩

/-- Check the entries of a table in the order in which they are written. -/
def checkEntries (fields : List Field) : Table → Except Fault Unit
  | [] => .ok ()
  | (name, value) :: rest =>
    match fields.find? (·.name == name) with
    | none => .error (.unknownField name (fields.map (·.name)))
    | some field => do
      field.check value
      checkEntries fields rest

/-- A record whose entries have passed the checks of their fields. -/
structure Record where
  entries : Table
  /-- Whether the values were given by position and not by name. -/
  positional : Bool

namespace Record

/-- The record whose fields are given by name. -/
def ofEntries (fields : List Field) (entries : Table) : Except Fault Record := do
  checkEntries fields entries
  return ⟨entries, false⟩

/-- The record whose fields are given by position. -/
def ofItems (fields : List Field) (items : List Value) : Except Fault Record := do
  let entries := (fields.map (·.name)).zip items
  checkEntries fields entries
  return ⟨entries, true⟩

/-- The record of a value: by the names of the fields when the value has keys, by their order when
it is an array. -/
def of (fields : List Field) : Decoder Record
  | .array items => ofItems fields items
  | value =>
    match value.entries? with
    | some entries => ofEntries fields entries
    | none => .error .mismatch

/-- What is wrong when a field is not there. -/
def missing (record : Record) (name : String) : Fault :=
  if record.positional then .mismatch else .missingField name

/-- A field that has to be there. -/
def required {α : Type} (record : Record) (name : String) (decode : Decoder α) :
    Except Fault α :=
  match record.entries.lookup name with
  | some value => decode value
  | none => .error (record.missing name)

/-- A field that may be left out, and what it is then. -/
def withDefault {α : Type} (record : Record) (name : String) (absent : α) (decode : Decoder α) :
    Except Fault α :=
  match record.entries.lookup name with
  | some value => decode value
  | none => .ok absent

/-- A field that may be left out. -/
def optional {α : Type} (record : Record) (name : String) (decode : Decoder α) :
    Except Fault (Option α) :=
  record.withDefault name none fun value => (decode value).map some

/-- A field that may be left out of a table but not of an array. -/
def named {α : Type} (record : Record) (name : String) (decode : Decoder α) :
    Except Fault (Option α) :=
  if record.positional then (record.required name decode).map some
  else record.optional name decode

end Record

end PackagePlan.Toml
