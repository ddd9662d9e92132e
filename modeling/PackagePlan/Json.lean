/-
  JSON values whose objects keep the order of their members, and their indented text.
-/
namespace PackagePlan

/-- A JSON value. Numbers are counts, so they are natural. -/
inductive Json where
  | null
  | bool (value : Bool)
  | number (value : Nat)
  | string (value : String)
  | array (items : List Json)
  | object (members : List (String × Json))
  deriving Inhabited

namespace Json

/-- A list of texts. -/
def strings (items : List String) : Json := array (items.map string)

/-- A text, or null. -/
def ofOption (value : Option String) : Json := (value.map string).getD null

/-- A member that is always present. -/
def field (name : String) (value : Json) : Option (String × Json) := some (name, value)

/-- A member that is present when the value is. -/
def field? (name : String) (value : Option Json) : Option (String × Json) :=
  value.map fun v => (name, v)

/-- A list of texts as a member that is absent when the list is empty. -/
def listField? (name : String) (items : List String) : Option (String × Json) :=
  if items.isEmpty then none else some (name, strings items)

/-- The object of the members that are present. -/
def record (members : List (Option (String × Json))) : Json := object (members.filterMap id)

/-- How one character is written inside a JSON string. -/
def escapedChar (c : Char) : List Char :=
  if c = '\x22' then ['\\', '\x22']
  else if c = '\\' then ['\\', '\\']
  else if c = '\n' then ['\\', 'n']
  else if c = '\r' then ['\\', 'r']
  else if c = '\t' then ['\\', 't']
  else if c.toNat = 8 then ['\\', 'b']
  else if c.toNat = 12 then ['\\', 'f']
  else if c.toNat < 16 then "\\u000".toList ++ Nat.toDigits 16 c.toNat
  else if c.toNat < 32 then "\\u00".toList ++ Nat.toDigits 16 c.toNat
  else [c]

/-- A text between double quotes. -/
def quote (s : String) : String :=
  String.ofList ('\x22' :: s.toList.flatMap escapedChar ++ ['\x22'])

/-- A line end followed by two blanks for each level of nesting. -/
def newline (depth : Nat) : String := "\n" ++ String.ofList (List.replicate (2 * depth) ' ')

/-- Items one per line between brackets; nothing between the brackets when there are none. -/
def block (depth : Nat) (opening closing : String) (items : List String) : String :=
  if items.isEmpty then opening ++ closing
  else
    let separator := "," ++ newline (depth + 1)
    opening ++ newline (depth + 1) ++ separator.intercalate items ++ newline depth ++ closing

mutual

/-- The indented text of a value at a level of nesting. -/
def renderAt (depth : Nat) : Json → String
  | null => "null"
  | bool value => if value then "true" else "false"
  | number value => toString value
  | string value => quote value
  | array items => block depth "[" "]" (renderItems (depth + 1) items)
  | object members => block depth "\x7b" "\x7d" (renderMembers (depth + 1) members)

/-- The texts of the items of an array. -/
def renderItems (depth : Nat) : List Json → List String
  | [] => []
  | item :: rest => renderAt depth item :: renderItems depth rest

/-- The texts of the members of an object. -/
def renderMembers (depth : Nat) : List (String × Json) → List String
  | [] => []
  | (name, value) :: rest =>
    (quote name ++ ": " ++ renderAt depth value) :: renderMembers depth rest

end

/-- The text of a value, indented by two blanks a level. -/
def render (value : Json) : String := renderAt 0 value

end Json

end PackagePlan
