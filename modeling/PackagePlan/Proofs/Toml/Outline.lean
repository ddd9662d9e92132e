/-
  The outline of a written document. A table is written as the pairs of its lines and a section
  for each block below it, and the outline of its text is made of the same pairs and sections
  (`outline?_render`), as long as every line holds a value that is read back from a line and no
  header is nested too deeply.
-/
import PackagePlan.Proofs.Toml.Line

namespace PackagePlan.Toml

/-! ## The sections of a table -/

/-- The pairs of the lines of a table. -/
def linePairs (entries : Table) : List Pair :=
  (entries.filter fun entry => !entry.2.isBlock).map fun entry => ⟨[], entry.1, entry.2⟩

/-- The section that opens a table, unless the sections inside it say that it is there. -/
def tableSection (way : List String) (name : String) (entries : Table) : List Section :=
  if !entries.isEmpty && (linePairs entries).isEmpty then []
  else [⟨.table way name, linePairs entries⟩]

mutual

/-- The sections of a value under a name; none for a value on a line. -/
def sections (way : List String) (name : String) : Value → List Section
  | .table entries => tableSection way name entries ++ sectionsIn (way ++ [name]) entries
  | .array items =>
    if !items.isEmpty && items.all Value.isTable then itemSections way name items else []
  | _ => []

/-- The sections of the values inside a table. -/
def sectionsIn (way : List String) : List (String × Value) → List Section
  | [] => []
  | (name, value) :: rest => sections way name value ++ sectionsIn way rest

/-- The sections of the tables in an array of tables. -/
def itemSections (way : List String) (name : String) : List Value → List Section
  | [] => []
  | .table entries :: rest =>
    ⟨.item way name, linePairs entries⟩ :: sectionsIn (way ++ [name]) entries ++
      itemSections way name rest
  | _ :: rest => itemSections way name rest

end

/-- The line of a pair whose key has no dots. -/
def Pair.text (pair : Pair) : List Char := pairText pair.name (valueText pair.value) ++ ['\n']

/-- The block of a section. -/
def Section.text (part : Section) : List Char :=
  part.header.text ++ part.pairs.flatMap Pair.text

theorem lines_eq (entries : Table) : lines entries = (linePairs entries).flatMap Pair.text := by
  unfold lines linePairs
  rw [List.flatMap_map]
  rfl

theorem isEmpty_lines (entries : Table) :
    (lines entries).isEmpty = (linePairs entries).isEmpty := by
  rw [lines_eq]
  cases linePairs entries with
  | nil => rfl
  | cons pair pairs => simp [Pair.text]

theorem tableBlock_eq (way : List String) (name : String) (entries : Table) :
    tableBlock (way ++ [name]) entries = (tableSection way name entries).map Section.text := by
  unfold tableBlock tableSection
  rw [isEmpty_lines]
  split
  · rfl
  · rw [lines_eq]
    rfl

theorem itemBlock_eq (way : List String) (name : String) (entries : Table) :
    itemBlock (way ++ [name]) entries = Section.text ⟨.item way name, linePairs entries⟩ := by
  unfold itemBlock
  rw [lines_eq]
  rfl

mutual

/-- The blocks of a value are the texts of its sections. -/
theorem blocks_eq (way : List String) (name : String) (v : Value) :
    blocks (way ++ [name]) v = (sections way name v).map Section.text := by
  cases v with
  | table entries =>
    rw [blocks, sections, List.map_append, tableBlock_eq, blocksIn_eq]
  | array items =>
    rw [blocks, sections]
    split
    · exact itemBlocks_eq way name items
    · rfl
  | _ => rfl

theorem blocksIn_eq (way : List String) (entries : List (String × Value)) :
    blocksIn way entries = (sectionsIn way entries).map Section.text := by
  match entries with
  | [] => rfl
  | (name, value) :: rest =>
    rw [blocksIn, sectionsIn, List.map_append, blocks_eq way name value, blocksIn_eq way rest]

theorem itemBlocks_eq (way : List String) (name : String) (items : List Value) :
    itemBlocks (way ++ [name]) items = (itemSections way name items).map Section.text := by
  match items with
  | [] => rfl
  | item :: rest =>
    have hrest := itemBlocks_eq way name rest
    cases item with
    | table entries =>
      rw [itemBlocks, itemSections, itemBlock_eq, blocksIn_eq (way ++ [name]) entries, hrest]
      simp
    | _ => exact hrest

end

/-! ## Reading the texts of sections -/

/-- The outline of a text that is well formed. -/
def outline? (s : List Char) : Option (List Pair × List Section) := (statements? s).map outline

theorem statements?_of_statement? {s rest : List Char} {statement : Statement}
    (h : statement? s = some (statement, rest)) (hlength : rest.length < s.length) :
    statements? s = (statements? rest).map (statement :: ·) := by
  have hs : s.isEmpty = false := by
    cases s with
    | nil => cases hlength
    | cons => rfl
  rw [statements?, hs, if_neg Bool.false_ne_true]
  split
  · next hnone =>
    rw [h] at hnone
    cases hnone
  · next hsome =>
    rw [h] at hsome
    cases hsome
    rw [dif_pos hlength]

theorem outline?_nil : outline? [] = some ([], []) := by
  unfold outline?
  rw [statements?]
  rfl

theorem outline?_blank (s : List Char) : outline? ('\n' :: s) = outline? s := by
  unfold outline?
  rw [statements?_of_statement? (statement?_blank s) (by simp), Option.map_map]
  rfl

theorem outline?_pair {pair : Pair} (hway : pair.way = []) (hvalue : pair.value.isLine = true)
    (s : List Char) :
    outline? (pair.text ++ s) = (outline? s).map fun o => (pair :: o.1, o.2) := by
  obtain ⟨way, name, value⟩ := pair
  subst hway
  have hline := statement?_pairText name hvalue s
  unfold outline? Pair.text
  rw [List.append_assoc, List.singleton_append, statements?_of_statement? hline (by simp; omega),
    Option.map_map, Option.map_map]
  rfl

theorem outline?_header {header : Header} (h : header.way.length < nestingLimit) (s : List Char) :
    outline? (header.text ++ s) = (outline? s).map fun o => ([], ⟨header, o.1⟩ :: o.2) := by
  have hlength : s.length < (header.text ++ s).length := by
    cases header <;> simp [Header.text] <;> omega
  unfold outline?
  rw [statements?_of_statement? (statement?_header h s) hlength, Option.map_map, Option.map_map]
  rfl

/-- Whether a pair is read back from its line. -/
def Pair.IsLine (pair : Pair) : Prop := pair.way = [] ∧ pair.value.isLine = true

/-- Whether a section is read back from its block. -/
structure Section.IsBlock (part : Section) : Prop where
  header : part.header.way.length < nestingLimit
  pairs : ∀ pair ∈ part.pairs, pair.IsLine

theorem outline?_pairs {pairs : List Pair} (h : ∀ pair ∈ pairs, pair.IsLine) (s : List Char) :
    outline? (pairs.flatMap Pair.text ++ s) = (outline? s).map fun o => (pairs ++ o.1, o.2) := by
  induction pairs with
  | nil => simp
  | cons pair pairs ih =>
    obtain ⟨hpair, hpairs⟩ := List.forall_mem_cons.1 h
    rw [List.flatMap_cons, List.append_assoc, outline?_pair hpair.1 hpair.2, ih hpairs,
      Option.map_map]
    rfl

theorem outline?_section {part : Section} (h : part.IsBlock) (s : List Char) :
    outline? (part.text ++ s) =
      (outline? s).map fun o => ([], ⟨part.header, part.pairs ++ o.1⟩ :: o.2) := by
  unfold Section.text
  rw [List.append_assoc, outline?_header h.header, outline?_pairs h.pairs, Option.map_map]
  rfl

/-- Blocks with empty lines between them are read back as their sections. -/
theorem outline?_sections {parts : List Section} (h : ∀ part ∈ parts, part.IsBlock) :
    outline? (Text.joined '\n' (parts.map Section.text)) = some ([], parts) := by
  induction parts with
  | nil => exact outline?_nil
  | cons part parts ih =>
    obtain ⟨hpart, hparts⟩ := List.forall_mem_cons.1 h
    cases parts with
    | nil =>
      have hread := outline?_section hpart []
      rw [List.append_nil, outline?_nil] at hread
      simpa [Text.joined] using hread
    | cons second more =>
      rw [List.map_cons, List.map_cons, Text.joined, outline?_section hpart, outline?_blank]
      · rw [← List.map_cons, ih hparts]
        simp
      · exact List.cons_ne_nil _ _

/-- A document is read back as the pairs and sections that it was written from. -/
theorem outline?_render {entries : Table} (hpairs : ∀ pair ∈ linePairs entries, pair.IsLine)
    (hparts : ∀ part ∈ sectionsIn [] entries, part.IsBlock) :
    outline? (Table.render entries).toList = some (linePairs entries, sectionsIn [] entries) := by
  unfold Table.render
  rw [String.toList_ofList, blocksIn_eq, isEmpty_lines, lines_eq]
  generalize sectionsIn [] entries = parts at *
  cases hlines : linePairs entries with
  | nil => exact outline?_sections hparts
  | cons pair pairs =>
    rw [hlines] at hpairs
    show outline? (Text.joined '\n'
      ((pair :: pairs).flatMap Pair.text :: parts.map Section.text)) = _
    cases parts with
    | nil =>
      have hread := outline?_pairs hpairs []
      rw [List.append_nil, outline?_nil] at hread
      simpa [Text.joined] using hread
    | cons part parts =>
      rw [List.map_cons, Text.joined, outline?_pairs hpairs, outline?_blank]
      · rw [← List.map_cons, outline?_sections hparts]
        simp
      · exact List.cons_ne_nil _ _

/-- A well-formed text does not start with a byte order mark. -/
theorem skipByteOrderMark_eq {s : List Char} {o : List Pair × List Section}
    (h : outline? s = some o) : skipByteOrderMark s = s := by
  unfold skipByteOrderMark
  split
  · next rest =>
    have hkey : key? ('\ufeff' :: rest) = none := by
      unfold key?
      rw [keyNames?]
      rfl
    have hstatement : statement? ('\ufeff' :: rest) = none := by
      unfold statement?
      rw [statementEnd?_cons (by decide) (by decide) (by decide) (by decide),
        skipSpaces_cons (by decide)]
      unfold declaration? pair?
      rw [hkey]
      rfl
    unfold outline? at h
    rw [statements?, if_neg (by simp)] at h
    split at h
    · cases h
    · next hsome =>
      rw [hstatement] at hsome
      cases hsome
  · rfl

theorem parse?_of_outline? {text : String} {o : List Pair × List Section}
    (h : outline? text.toList = some o) : Table.parse? text = document? o.1 o.2 := by
  unfold Table.parse?
  rw [skipByteOrderMark_eq h]
  unfold outline? at h
  obtain ⟨statements, hstatements, rfl⟩ := Option.map_eq_some_iff.1 h
  rw [hstatements]

end PackagePlan.Toml
