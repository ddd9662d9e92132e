/-
  The values a TOML document holds. Tables keep the order of their keys. Floats and dates are held
  as they are written, since nothing here computes with them.
-/
namespace PackagePlan.Toml

/-- A TOML value. -/
inductive Value where
  | string (value : String)
  | integer (value : Int)
  | float (text : String)
  | bool (value : Bool)
  | datetime (text : String)
  | array (items : List Value)
  | table (entries : List (String × Value))
  deriving Inhabited

/-- The entries of a table, in order. -/
abbrev Table := List (String × Value)

/-- The key under which a date or time lies when it is read as a table. -/
def datetimeKey : String := "$__toml_private_datetime"

/-- The entries of a value that is read by its keys: those of a table, and for a date or time its
text under a key of its own. -/
def Value.entries? : Value → Option Table
  | .table entries => some entries
  | .datetime text => some [(datetimeKey, .string text)]
  | _ => none

/-- A list of texts as a value. -/
def texts (items : List String) : Value := .array (items.map .string)

/-- A table of entries whose values are encoded in one way. -/
def tableOf {α : Type} (encode : α → Value) (entries : List (String × α)) : Value :=
  .table (entries.map fun entry => (entry.1, encode entry.2))

/-- The value of a slot that is left out when there is nothing to say. -/
def unlessEmpty (empty : Bool) (value : Value) : Option Value := if empty then none else some value

/-- A list of texts that is left out when it is empty. -/
def texts? (items : List String) : Option Value := unlessEmpty items.isEmpty (texts items)

/-- The entries of a record: its slots, without those that are left out. -/
def present (slots : List (String × Option Value)) : Table :=
  slots.filterMap fun slot => slot.2.map fun value => (slot.1, value)

end PackagePlan.Toml
