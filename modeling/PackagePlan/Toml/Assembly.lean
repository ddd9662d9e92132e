/-
  The statements of a TOML document, and the table they build together. A table may be opened by
  one header only; a dotted key may open tables on its way but may not reach into a table that has
  a header of its own; and no key is given twice.
-/
import PackagePlan.Toml.Value

namespace PackagePlan.Toml

/-- A statement gives a value to a dotted key. The key is split into the names on the way and the
last name. -/
structure Pair where
  way : List String
  name : String
  value : Value

/-- A header opens a table, or adds one to an array of tables. -/
inductive Header where
  | table (way : List String) (name : String)
  | item (way : List String) (name : String)

/-- The names that lead to the table in which a header stands. -/
def Header.way : Header → List String
  | table way _ => way
  | item way _ => way

/-- A header and the pairs below it. -/
structure Section where
  header : Header
  pairs : List Pair

/-- What a key stands for while a document is read. -/
inductive Node where
  | value (value : Value)
  /-- A table; `implicit` when no header and no braces opened it, `dotted` when a dotted key did. -/
  | table (implicit dotted : Bool) (entries : List (String × Node))
  /-- An array of tables that are opened by headers. -/
  | items (tables : List (List (String × Node)))

namespace Node

/-- The entries of a table while a document is read. -/
abbrev Entries := List (String × Node)

/-- Replace what a key stands for, or add the key at the end. -/
def set (name : String) (node : Node) : Entries → Entries
  | [] => [(name, node)]
  | (key, old) :: rest =>
    if key = name then (name, node) :: rest else (key, old) :: set name node rest

/-- The entries under other keys. -/
def erase (name : String) (entries : Entries) : Entries := entries.filter (·.1 != name)

/-- Change the table that a way leads to, and open the tables that are missing on it. `dotted`
tells whether the way belongs to a dotted key or to a header. The change learns whether a dotted
key opened the table. -/
def update (dotted : Bool) (change : Bool → Entries → Option Entries) :
    List String → Bool → Entries → Option Entries
  | [], openedByKey, entries => change openedByKey entries
  | name :: way, _, entries =>
    match entries.lookup name with
    | none => (update dotted change way dotted []).map fun inner =>
        entries ++ [(name, .table true dotted inner)]
    | some (.value _) => none
    | some (.table implicit byKey inner) =>
      if dotted && !implicit then none
      else (update dotted change way byKey inner).map fun inner =>
        set name (.table implicit byKey inner) entries
    | some (.items tables) =>
      match tables.getLast? with
      | none => none
      | some last => (update dotted change way false last).map fun inner =>
        set name (.items (tables.dropLast ++ [inner])) entries

/-- Give a value to a dotted key. A key without dots belongs into a table opened by a header or
braces, and a dotted key ends in a table opened by a dotted key. -/
def addPair (entries : Entries) (pair : Pair) : Option Entries :=
  update true (fun openedByKey table =>
    if openedByKey == pair.way.isEmpty then none
    else if (table.lookup pair.name).isSome then none
    else some (table ++ [(pair.name, .value pair.value)])) pair.way false entries

/-- Give values to dotted keys, one after the other. -/
def addPairs (entries : Entries) (pairs : List Pair) : Option Entries :=
  pairs.foldlM addPair entries

/-- Open the table of a header inside the table it stands in, and give it its pairs. A table that
was only passed through before moves to the end and keeps what it holds. -/
def openSection (part : Section) (parent : Entries) : Option Entries :=
  match part.header with
  | .table _ name =>
    match parent.lookup name with
    | none => (addPairs [] part.pairs).map fun body =>
        parent ++ [(name, .table false false body)]
    | some (.table true false held) => (addPairs held part.pairs).map fun body =>
        erase name parent ++ [(name, .table false false body)]
    | some _ => none
  | .item _ name =>
    match parent.lookup name with
    | none => (addPairs [] part.pairs).map fun body => parent ++ [(name, .items [body])]
    | some (.items tables) => (addPairs [] part.pairs).map fun body =>
        set name (.items (tables ++ [body])) parent
    | some _ => none

/-- Add a section to the table of a document. -/
def addSection (entries : Entries) (part : Section) : Option Entries :=
  update false (fun _ => openSection part) part.header.way false entries

mutual

/-- The value a key stands for. -/
def toValue : Node → Value
  | value v => v
  | table _ _ entries => .table (toTable entries)
  | items tables => .array (toTables tables)

/-- The table of the entries. -/
def toTable : List (String × Node) → List (String × Value)
  | [] => []
  | (name, node) :: rest => (name, toValue node) :: toTable rest

/-- The tables of an array of tables. -/
def toTables : List (List (String × Node)) → List Value
  | [] => []
  | entries :: rest => .table (toTable entries) :: toTables rest

end

end Node

/-- The table of pairs between braces. -/
def inlineTable? (pairs : List Pair) : Option Value :=
  (Node.addPairs [] pairs).map fun entries => .table (Node.toTable entries)

/-- The table of a document: the pairs before the first header, and the parts with headers. -/
def document? (pairs : List Pair) (parts : List Section) : Option Table := do
  let top ← Node.addPairs [] pairs
  let all ← parts.foldlM Node.addSection top
  return Node.toTable all

end PackagePlan.Toml
