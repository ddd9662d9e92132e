/-
  The grammar of TOML documents: values, the pairs of key and value, headers, and the statements
  of a document. Arrays may run over several lines and end in a comma; tables in braces may not.
-/
import PackagePlan.Toml.Key

namespace PackagePlan.Toml

/-- A value that holds no other: a string, a number, a date or a word. -/
def scalar? : Reader Value
  | 't' :: 'r' :: 'u' :: 'e' :: rest => some (.bool true, rest)
  | 'f' :: 'a' :: 'l' :: 's' :: 'e' :: rest => some (.bool false, rest)
  | 'i' :: 'n' :: 'f' :: rest => some (.float "inf", rest)
  | 'n' :: 'a' :: 'n' :: rest => some (.float "nan", rest)
  | [] => none
  | c :: rest =>
    if c = doubleQuote || c = singleQuote then
      (text? (c :: rest)).map fun r => (.string r.1, r.2)
    else if c = '+' || c = '-' || Number.isDigitOf 10 c then Moment.orNumber (c :: rest)
    else none

/-- The items of an array up to its closing bracket; a comma may follow the last one. -/
def items? (read : Reader Value) (s : List Char) : Option (List Value × List Char) :=
  match skipGap false s with
  | ']' :: rest => some ([], rest)
  | start =>
    match read start with
    | none => none
    | some (value, after) =>
      match skipGap false after with
      | ']' :: rest => some ([value], rest)
      | ',' :: rest =>
        if _h : rest.length < s.length then
          (items? read rest).map fun r => (value :: r.1, r.2)
        else none
      | _ => none
termination_by s.length

/-- A key, an equals sign and a value. -/
def pair? (read : Reader Value) : Reader Pair := fun s =>
  match key? s with
  | some ((way, name), '=' :: rest) =>
    (read (skipSpaces rest)).map fun r => (⟨way, name, r.1⟩, r.2)
  | _ => none

/-- One or more pairs with commas between, up to the closing brace. -/
def pairs? (read : Reader Value) (s : List Char) : Option (List Pair × List Char) :=
  match pair? read s with
  | none => none
  | some (pair, after) =>
    match skipSpaces after with
    | '\x7d' :: rest => some ([pair], rest)
    | ',' :: rest =>
      if _h : rest.length < s.length then
        (pairs? read rest).map fun r => (pair :: r.1, r.2)
      else none
    | _ => none
termination_by s.length

/-- The pairs of a table in braces, read behind the opening brace. -/
def braced? (read : Reader Value) (s : List Char) : Option (List Pair × List Char) :=
  match skipSpaces s with
  | '\x7d' :: rest => some ([], rest)
  | _ => pairs? read s

/-- A value in which at most `budget` arrays and tables are nested. -/
def value? : Nat → Reader Value
  | budget + 1, '[' :: rest => (items? (value? budget) rest).map fun r => (.array r.1, r.2)
  | budget + 1, '\x7b' :: rest =>
    match braced? (value? budget) rest with
    | none => none
    | some (pairs, rest) => (inlineTable? pairs).map fun table => (table, rest)
  | _, s => scalar? s

/-- What one line or more of a document says. -/
inductive Statement where
  | blank
  | header (header : Header)
  | pair (pair : Pair)

/-- The header of a table or of an item in an array of tables. -/
def header? : Reader Header
  | '[' :: '[' :: rest =>
    match key? rest with
    | some ((way, name), ']' :: ']' :: rest) => some (.item way name, rest)
    | _ => none
  | '[' :: rest =>
    match key? rest with
    | some ((way, name), ']' :: rest) => some (.table way name, rest)
    | _ => none
  | _ => none

/-- A header or a pair, without what ends the statement. -/
def declaration? (s : List Char) : Option (Statement × List Char) :=
  match s with
  | '[' :: _ => (header? s).map fun r => (.header r.1, r.2)
  | _ => (pair? (value? nestingLimit) s).map fun r => (.pair r.1, r.2)

/-- A statement and what ends it. -/
def statement? (s : List Char) : Option (Statement × List Char) :=
  match statementEnd? s with
  | some rest => some (.blank, rest)
  | none =>
    match declaration? (skipSpaces s) with
    | none => none
    | some (statement, after) => (statementEnd? after).map fun rest => (statement, rest)

/-- The statements of a text. -/
def statements? (s : List Char) : Option (List Statement) :=
  if s.isEmpty then some []
  else match statement? s with
    | none => none
    | some (statement, rest) =>
      if _h : rest.length < s.length then (statements? rest).map (statement :: ·) else none
termination_by s.length

/-- The pairs before the first header, and each header with the pairs below it. -/
def outline : List Statement → List Pair × List Section
  | [] => ([], [])
  | .blank :: rest => outline rest
  | .pair pair :: rest => (pair :: (outline rest).1, (outline rest).2)
  | .header header :: rest => ([], ⟨header, (outline rest).1⟩ :: (outline rest).2)

/-- The text without the mark that some editors put in front of it. -/
def skipByteOrderMark : List Char → List Char
  | '\ufeff' :: rest => rest
  | s => s

/-- The table that a document denotes, if it is well formed. -/
def Table.parse? (text : String) : Option Table :=
  match statements? (skipByteOrderMark text.toList) with
  | none => none
  | some statements => document? (outline statements).1 (outline statements).2

end PackagePlan.Toml
