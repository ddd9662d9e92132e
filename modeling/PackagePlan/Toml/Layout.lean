/-
  The text of a TOML document. A table is written as a block: its header, then a line for each
  value. Tables inside follow as blocks of their own, each under the whole way that leads to it,
  and so do arrays of tables. An array of two or more items has a line for each item.
-/
import PackagePlan.Toml.Spelling

namespace PackagePlan.Toml

/-- Whether a value is a table. -/
def Value.isTable : Value → Bool
  | table _ => true
  | _ => false

/-- Whether a value gets blocks of its own: a table, or an array of one or more tables. -/
def Value.isBlock : Value → Bool
  | table _ => true
  | array items => !items.isEmpty && items.all isTable
  | _ => false

/-- The line of an item in an array that has several. -/
def itemLine (item : List Char) : List Char := "\n    ".toList ++ item ++ [',']

/-- The text of an array whose items have these texts. -/
def arrayText : List (List Char) → List Char
  | [] => ['[', ']']
  | [item] => '[' :: item ++ [']']
  | items => '[' :: items.flatMap itemLine ++ ['\n', ']']

/-- The text of a table in braces whose pairs have these texts. -/
def bracedText (pairs : List (List Char)) : List Char :=
  match pairs with
  | [] => ['\x7b', '\x7d']
  | first :: rest =>
    ['\x7b', ' '] ++ first ++ rest.flatMap (fun pair => [',', ' '] ++ pair) ++ [' ', '\x7d']

/-- A key, an equals sign and the text of a value. -/
def pairText (name : String) (value : List Char) : List Char :=
  keySpelling name.toList ++ " = ".toList ++ value

mutual

/-- The text of a value on the right of an equals sign. -/
def valueText : Value → List Char
  | .string value => stringSpelling value.toList
  | .integer value => (toString value).toList
  | .float text => text.toList
  | .bool value => if value then "true".toList else "false".toList
  | .datetime text => text.toList
  | .array items => arrayText (itemTexts items)
  | .table entries => bracedText (pairTexts entries)

/-- The texts of the items of an array. -/
def itemTexts : List Value → List (List Char)
  | [] => []
  | item :: rest => valueText item :: itemTexts rest

/-- The texts of the pairs of a table in braces. -/
def pairTexts : List (String × Value) → List (List Char)
  | [] => []
  | (name, value) :: rest => pairText name (valueText value) :: pairTexts rest

end

/-- The lines for the values of a table that get no blocks. -/
def lines (entries : Table) : List Char :=
  (entries.filter fun entry => !entry.2.isBlock).flatMap fun entry =>
    pairText entry.1 (valueText entry.2) ++ ['\n']

/-- The names of a way with dots between. -/
def wayText (way : List String) : List Char :=
  Text.joined '.' (way.map fun name => keySpelling name.toList)

/-- The block of a table, unless the blocks inside it say that it is there. -/
def tableBlock (way : List String) (entries : Table) : List (List Char) :=
  if !entries.isEmpty && (lines entries).isEmpty then []
  else ['[' :: wayText way ++ [']', '\n'] ++ lines entries]

/-- The block of one table in an array of tables. -/
def itemBlock (way : List String) (entries : Table) : List Char :=
  ['[', '['] ++ wayText way ++ [']', ']', '\n'] ++ lines entries

mutual

/-- The blocks of a value that stands under a way; none for a value on a line. -/
def blocks (way : List String) : Value → List (List Char)
  | .table entries => tableBlock way entries ++ blocksIn way entries
  | .array items =>
    if !items.isEmpty && items.all Value.isTable then itemBlocks way items else []
  | _ => []

/-- The blocks of the values inside a table. -/
def blocksIn (way : List String) : List (String × Value) → List (List Char)
  | [] => []
  | (name, value) :: rest => blocks (way ++ [name]) value ++ blocksIn way rest

/-- The blocks of the tables in an array of tables. -/
def itemBlocks (way : List String) : List Value → List (List Char)
  | [] => []
  | .table entries :: rest => itemBlock way entries :: blocksIn way entries ++ itemBlocks way rest
  | _ :: rest => itemBlocks way rest

end

/-- The text of a document: the lines of the outermost table, then the blocks, with an empty line
in front of each block but not at the very start. -/
def Table.render (entries : Table) : String :=
  let top := lines entries
  let all := if top.isEmpty then blocksIn [] entries else top :: blocksIn [] entries
  String.ofList (Text.joined '\n' all)

end PackagePlan.Toml
