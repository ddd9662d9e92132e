/-
  Reading a written document. A table whose values are strings, arrays of strings, tables and
  arrays of tables is read back from its text, but in the order of the text: the values on lines
  come before those with blocks, in every table (`parse?_render`).

  The proof is by induction on how the values are nested. The sections of a value that has blocks
  add one entry at the end of whatever is there (`isBuilt_of_isWritable`): its own section opens the
  entry, and the sections inside build in it what they build from nothing.
-/
import PackagePlan.Proofs.Toml.Assembly
import PackagePlan.Proofs.Toml.Outline
import Mathlib.Data.List.Nodup

namespace PackagePlan.Toml

/-! ## Values that are read back -/

/-- A value that is read back from a document in which at most `room` names lead to a header:
what stands on a line, and tables without repeated names, alone or in an array. -/
inductive Value.IsWritable : Nat → Value → Prop where
  | line {room : Nat} {v : Value} : v.isLine = true → IsWritable room v
  | table {room : Nat} {entries : Table} :
      (entries.map (·.1)).Nodup → (∀ entry ∈ entries, IsWritable room entry.2) →
      IsWritable (room + 1) (.table entries)
  | tables {room : Nat} {tables : List Table} :
      tables ≠ [] → (∀ entries ∈ tables, (entries.map (·.1)).Nodup) →
      (∀ entries ∈ tables, ∀ entry ∈ entries, IsWritable room entry.2) →
      IsWritable (room + 1) (.array (tables.map .table))

mutual

/-- A value with the entries of its tables in the order in which they are written. -/
def Value.arranged : Value → Value
  | .array items => .array (arrangedItems items)
  | .table entries =>
    .table (entries.filter (fun entry => !entry.2.isBlock) ++ arrangedBlocks entries)
  | v => v

/-- The entries of a table that have blocks. -/
def arrangedBlocks : List (String × Value) → Table
  | [] => []
  | (name, value) :: rest =>
    if value.isBlock then (name, value.arranged) :: arrangedBlocks rest else arrangedBlocks rest

/-- The items of an array. -/
def arrangedItems : List Value → List Value
  | [] => []
  | item :: rest => item.arranged :: arrangedItems rest

end

/-- The entries of a table in the order in which they are written: first those on lines, then
those with blocks. -/
def arrange (entries : Table) : Table :=
  entries.filter (fun entry => !entry.2.isBlock) ++ arrangedBlocks entries

theorem arranged_table (entries : Table) :
    (Value.table entries).arranged = .table (arrange entries) := rfl

theorem arrangedItems_eq (items : List Value) : arrangedItems items = items.map Value.arranged := by
  induction items with
  | nil => rfl
  | cons item items ih => rw [arrangedItems, List.map_cons, ih]

theorem isBlock_of_isLine {v : Value} (h : v.isLine = true) : v.isBlock = false := by
  cases v with
  | string s => rfl
  | array items =>
    cases items with
    | nil => rfl
    | cons item items =>
      obtain ⟨s, rfl⟩ := Value.exists_of_isText (List.all_eq_true.1 h item List.mem_cons_self)
      rfl
  | _ => cases h

theorem isBlock_tables {tables : List Table} (h : tables ≠ []) :
    (Value.array (tables.map .table)).isBlock = true := by
  have hall : (tables.map Value.table).all Value.isTable = true := by
    rw [List.all_map, List.all_eq_true]
    exact fun _ _ => rfl
  rw [Value.isBlock, hall]
  simpa using h

theorem isLine_of_isWritable {room : Nat} {v : Value} (h : v.IsWritable room)
    (hblock : v.isBlock = false) : v.isLine = true := by
  cases h with
  | line hline => exact hline
  | table => cases hblock
  | tables hne =>
    rw [isBlock_tables hne] at hblock
    cases hblock

theorem sections_of_isBlock {way : List String} {name : String} {v : Value}
    (h : v.isBlock = false) : sections way name v = [] := by
  cases v with
  | table => cases h
  | array items => rw [sections, if_neg (by simpa [Value.isBlock] using h)]
  | _ => rfl

theorem sections_tables {way : List String} {name : String} {tables : List Table}
    (h : tables ≠ []) : sections way name (.array (tables.map .table)) =
      itemSections way name (tables.map .table) := by
  rw [sections, if_pos]
  exact isBlock_tables h

/-! ## Every section is read back -/

theorem isLine_of_mem_linePairs {room : Nat} {entries : Table}
    (h : ∀ entry ∈ entries, entry.2.IsWritable room) {pair : Pair}
    (hpair : pair ∈ linePairs entries) : pair.IsLine := by
  obtain ⟨entry, hentry, rfl⟩ := List.mem_map.1 hpair
  obtain ⟨hmem, hblock⟩ := List.mem_filter.1 hentry
  exact ⟨rfl, isLine_of_isWritable (h entry hmem) (by simpa using hblock)⟩

theorem mem_sectionsIn {way : List String} {entries : Table} {part : Section}
    (h : part ∈ sectionsIn way entries) :
    ∃ entry ∈ entries, part ∈ sections way entry.1 entry.2 := by
  induction entries with
  | nil => cases h
  | cons entry entries ih =>
    rw [sectionsIn, List.mem_append] at h
    rcases h with h | h
    · exact ⟨entry, List.mem_cons_self, h⟩
    · obtain ⟨other, hother, hpart⟩ := ih h
      exact ⟨other, List.mem_cons_of_mem _ hother, hpart⟩

theorem mem_itemSections {way : List String} {name : String} {tables : List Table} {part : Section}
    (h : part ∈ itemSections way name (tables.map .table)) :
    ∃ entries ∈ tables, part = ⟨.item way name, linePairs entries⟩ ∨
      part ∈ sectionsIn (way ++ [name]) entries := by
  induction tables with
  | nil => cases h
  | cons entries tables ih =>
    rw [List.map_cons, itemSections, List.cons_append, List.mem_cons, List.mem_append] at h
    rcases h with h | h | h
    · exact ⟨entries, List.mem_cons_self, .inl h⟩
    · exact ⟨entries, List.mem_cons_self, .inr h⟩
    · obtain ⟨other, hother, hpart⟩ := ih h
      exact ⟨other, List.mem_cons_of_mem _ hother, hpart⟩

/-- The sections of a value that is read back are read back. -/
theorem isBlock_of_mem_sections {room : Nat} {v : Value} (h : v.IsWritable room)
    {way : List String} (hroom : way.length + room ≤ nestingLimit) {name : String} {part : Section}
    (hpart : part ∈ sections way name v) : part.IsBlock := by
  induction h generalizing way name part with
  | line hline =>
    rw [sections_of_isBlock (isBlock_of_isLine hline)] at hpart
    cases hpart
  | @table room entries _ hentries ih =>
    have hway : way.length < nestingLimit := by omega
    have hinside : ∀ part ∈ sectionsIn (way ++ [name]) entries, part.IsBlock := by
      intro part hpart
      obtain ⟨entry, hentry, hpart⟩ := mem_sectionsIn hpart
      refine ih entry hentry ?_ hpart
      rw [List.length_append, List.length_singleton]
      omega
    rw [sections, List.mem_append] at hpart
    rcases hpart with hpart | hpart
    · unfold tableSection at hpart
      split at hpart
      · cases hpart
      · rw [List.mem_singleton] at hpart
        subst hpart
        exact ⟨hway, fun _ => isLine_of_mem_linePairs hentries⟩
    · exact hinside part hpart
  | @tables room tables hne _ hentries ih =>
    have hway : way.length < nestingLimit := by omega
    rw [sections_tables hne] at hpart
    obtain ⟨entries, hmem, rfl | hpart⟩ := mem_itemSections hpart
    · exact ⟨hway, fun _ => isLine_of_mem_linePairs (hentries entries hmem)⟩
    · obtain ⟨entry, hentry, hpart⟩ := mem_sectionsIn hpart
      refine ih entries hmem entry hentry ?_ hpart
      rw [List.length_append, List.length_singleton]
      omega

/-! ## Every value is built again -/

theorem tableSection_under (top : String) (way : List String) (name : String) (entries : Table) :
    tableSection (top :: way) name entries =
      (tableSection way name entries).map (Section.under top) := by
  unfold tableSection
  split <;> rfl

mutual

/-- Below a further name, every section stands under that name. -/
theorem sections_under (top : String) (way : List String) (name : String) (v : Value) :
    sections (top :: way) name v = (sections way name v).map (Section.under top) := by
  cases v with
  | table entries =>
    rw [sections, sections, List.map_append, tableSection_under, List.cons_append, sectionsIn_under]
  | array items =>
    rw [sections, sections]
    split
    · exact itemSections_under top way name items
    · rfl
  | _ => rfl

theorem sectionsIn_under (top : String) (way : List String) (entries : List (String × Value)) :
    sectionsIn (top :: way) entries = (sectionsIn way entries).map (Section.under top) := by
  match entries with
  | [] => rfl
  | (name, value) :: rest =>
    rw [sectionsIn, sectionsIn, List.map_append, sections_under top way name value,
      sectionsIn_under top way rest]

theorem itemSections_under (top : String) (way : List String) (name : String)
    (items : List Value) : itemSections (top :: way) name items =
      (itemSections way name items).map (Section.under top) := by
  match items with
  | [] => rfl
  | item :: rest =>
    have hrest := itemSections_under top way name rest
    cases item with
    | table entries =>
      have hinside := sectionsIn_under top (way ++ [name]) entries
      rw [← List.cons_append] at hinside
      rw [itemSections, itemSections, hinside, hrest]
      simp [Section.under, Header.under]
    | _ => exact hrest

end

theorem toTable_append (a b : List (String × Node)) :
    Node.toTable (a ++ b) = Node.toTable a ++ Node.toTable b := by
  induction a with
  | nil => rfl
  | cons entry a ih => rw [List.cons_append, Node.toTable, Node.toTable, ih, List.cons_append]

/-- The entries that the lines of a table build. -/
def lineNodes (entries : Table) : Node.Entries :=
  (linePairs entries).map fun pair => (pair.name, .value pair.value)

theorem lineNodes_eq (entries : Table) : lineNodes entries =
    (entries.filter fun entry => !entry.2.isBlock).map fun entry => (entry.1, .value entry.2) := by
  unfold lineNodes linePairs
  rw [List.map_map]
  rfl

theorem toTable_lineNodes (entries : Table) :
    Node.toTable (lineNodes entries) = entries.filter fun entry => !entry.2.isBlock := by
  rw [lineNodes_eq]
  induction entries.filter fun entry => !entry.2.isBlock with
  | nil => rfl
  | cons entry rest ih => rw [List.map_cons, Node.toTable, ih, Node.toValue]

theorem addPairs_linePairs {entries : Table} (h : (entries.map (·.1)).Nodup) :
    Node.addPairs [] (linePairs entries) = some (lineNodes entries) := by
  refine Node.addPairs_eq ?_ ?_ ?_
  · intro pair hpair
    obtain ⟨entry, -, rfl⟩ := List.mem_map.1 hpair
    rfl
  · unfold linePairs
    rw [List.map_map]
    exact (List.filter_sublist.map _).nodup h
  · exact fun _ _ hmem => nomatch hmem

theorem not_mem_names_lineNodes {entries : Table} (h : (entries.map (·.1)).Nodup)
    {entry : String × Value} (hentry : entry ∈ entries) (hblock : entry.2.isBlock = true) :
    entry.1 ∉ Node.names (lineNodes entries) := by
  intro hmem
  unfold Node.names at hmem
  rw [lineNodes_eq, List.map_map] at hmem
  obtain ⟨other, hother, heq⟩ := List.mem_map.1 hmem
  obtain ⟨hother, hline⟩ := List.mem_filter.1 hother
  rw [List.inj_on_of_nodup_map h hother hentry heq, hblock] at hline
  cases hline

theorem arrange_ne_nil {entries : Table} (h : entries ≠ []) : arrange entries ≠ [] := by
  obtain ⟨entry, rest, rfl⟩ := List.exists_cons_of_ne_nil h
  obtain ⟨name, value⟩ := entry
  unfold arrange
  cases hblock : value.isBlock <;> simp [arrangedBlocks, hblock]

/-- Whether the sections of a value add it under any new name, with its entries arranged. -/
def Value.IsBuilt (v : Value) : Prop :=
  ∀ (held : Node.Entries) (name : String), name ∉ Node.names held →
    ∃ node, (sections [] name v).foldlM Node.addSection held = some (held ++ [(name, node)]) ∧
      node.toValue = v.arranged

section

variable {entries : Table} (hnodup : (entries.map (·.1)).Nodup)
  (hbuilt : ∀ entry ∈ entries, entry.2.isBlock = true → entry.2.IsBuilt)

include hnodup hbuilt

/-- The sections inside a table add the values with blocks, one after the other. -/
theorem exists_nodes {held : Node.Entries}
    (hnew : ∀ entry ∈ entries, entry.2.isBlock = true → entry.1 ∉ Node.names held) :
    ∃ nodes, (sectionsIn [] entries).foldlM Node.addSection held = some (held ++ nodes) ∧
      Node.toTable nodes = arrangedBlocks entries := by
  induction entries generalizing held with
  | nil => exact ⟨[], by simp [sectionsIn], rfl⟩
  | cons entry entries ih =>
    obtain ⟨name, value⟩ := entry
    obtain ⟨hother, hnodup⟩ := List.nodup_cons.1 hnodup
    obtain ⟨hfirst, hbuilt⟩ := List.forall_mem_cons.1 hbuilt
    obtain ⟨hname, hnew⟩ := List.forall_mem_cons.1 hnew
    rw [sectionsIn, List.foldlM_append, arrangedBlocks]
    cases hblock : value.isBlock with
    | false =>
      rw [sections_of_isBlock hblock]
      exact ih hnodup hbuilt hnew
    | true =>
      obtain ⟨node, hnode, hvalue⟩ := hfirst hblock held name (hname hblock)
      have hnew : ∀ entry ∈ entries, entry.2.isBlock = true →
          entry.1 ∉ Node.names (held ++ [(name, node)]) := by
        intro entry hentry hisBlock
        unfold Node.names
        rw [List.map_append, List.mem_append, not_or, List.map_singleton, List.mem_singleton]
        refine ⟨hnew entry hentry hisBlock, fun heq => hother ?_⟩
        have hmem : entry.1 ∈ entries.map (·.1) := List.mem_map_of_mem hentry
        rw [heq] at hmem
        exact hmem
      obtain ⟨nodes, hnodes, htable⟩ := ih hnodup hbuilt hnew
      refine ⟨(name, node) :: nodes, ?_, ?_⟩
      · rw [hnode]
        show (sectionsIn [] entries).foldlM Node.addSection _ = _
        rw [hnodes]
        simp
      · rw [Node.toTable, hvalue, htable]
        rfl

/-- The lines of a table and the sections inside it build the table, arranged. -/
theorem exists_body : ∃ body,
    (sectionsIn [] entries).foldlM Node.addSection (lineNodes entries) = some body ∧
      Node.toTable body = arrange entries := by
  obtain ⟨nodes, hnodes, htable⟩ :=
    exists_nodes hnodup hbuilt fun _ hentry => not_mem_names_lineNodes hnodup hentry
  refine ⟨lineNodes entries ++ nodes, hnodes, ?_⟩
  rw [toTable_append, toTable_lineNodes, htable]
  rfl

theorem isBuilt_table : (Value.table entries).IsBuilt := by
  intro held name hname
  obtain ⟨body, hbody, htable⟩ := exists_body hnodup hbuilt
  have hinside : sectionsIn ([] ++ [name]) entries =
      (sectionsIn [] entries).map (Section.under name) := sectionsIn_under name [] entries
  rw [sections, hinside]
  unfold tableSection
  -- without a section of its own the table is opened by the first section inside it
  by_cases hskip : (!entries.isEmpty && (linePairs entries).isEmpty) = true
  · rw [if_pos hskip, List.nil_append]
    rw [Bool.and_eq_true, Bool.not_eq_true', List.isEmpty_iff, List.isEmpty_eq_false_iff] at hskip
    have hlines : lineNodes entries = [] := by
      unfold lineNodes
      rw [hskip.2]
      rfl
    rw [hlines] at hbody
    have hparts : sectionsIn [] entries ≠ [] := by
      intro hempty
      rw [hempty] at hbody
      cases hbody
      exact arrange_ne_nil hskip.1 htable.symm
    refine ⟨.table true false body, ?_, ?_⟩
    · rw [Node.foldlM_under_new hname hparts, hbody]
      rfl
    · rw [Node.toValue, htable, arranged_table]
  · rw [if_neg hskip, List.singleton_append, List.foldlM_cons,
      Node.addSection_table hname (addPairs_linePairs hnodup)]
    refine ⟨.table false false body, ?_, ?_⟩
    · show (List.map _ _).foldlM Node.addSection _ = _
      rw [Node.foldlM_under (Node.addSection_under_table hname false), hbody]
      rfl
    · rw [Node.toValue, htable, arranged_table]

/-- The sections inside a further table of an array build it there, arranged. -/
theorem exists_body_item {held : Node.Entries} {name : String} (hname : name ∉ Node.names held)
    (done : List Node.Entries) : ∃ body,
    (sectionsIn [name] entries).foldlM Node.addSection
        (held ++ [(name, .items (done ++ [lineNodes entries]))]) =
      some (held ++ [(name, .items (done ++ [body]))]) ∧ Node.toTable body = arrange entries := by
  obtain ⟨body, hbody, htable⟩ := exists_body hnodup hbuilt
  refine ⟨body, ?_, htable⟩
  rw [sectionsIn_under name [] entries,
    Node.foldlM_under (Node.addSection_under_items hname done), hbody]
  rfl

end

section

variable {held : Node.Entries} {name : String} (hname : name ∉ Node.names held)

include hname

/-- The sections of further tables in an array add them to the array. -/
theorem exists_items {tables : List Table}
    (hnodup : ∀ entries ∈ tables, (entries.map (·.1)).Nodup)
    (hbuilt : ∀ entries ∈ tables, ∀ entry ∈ entries, entry.2.isBlock = true → entry.2.IsBuilt)
    (done : List Node.Entries) : ∃ bodies,
    (itemSections [] name (tables.map .table)).foldlM Node.addSection
        (held ++ [(name, .items done)]) = some (held ++ [(name, .items (done ++ bodies))]) ∧
      Node.toTables bodies = arrangedItems (tables.map .table) := by
  induction tables generalizing done with
  | nil => exact ⟨[], by simp [itemSections], rfl⟩
  | cons entries tables ih =>
    obtain ⟨hfirst, hnodup⟩ := List.forall_mem_cons.1 hnodup
    obtain ⟨hfirstBuilt, hbuilt⟩ := List.forall_mem_cons.1 hbuilt
    obtain ⟨body, hbody, htable⟩ := exists_body_item hfirst hfirstBuilt hname done
    obtain ⟨bodies, hbodies, htables⟩ := ih hnodup hbuilt (done ++ [body])
    refine ⟨body :: bodies, ?_, ?_⟩
    · rw [List.map_cons, itemSections, List.cons_append, List.foldlM_cons,
        Node.addSection_item_next hname done (addPairs_linePairs hfirst)]
      show (sectionsIn [name] entries ++ _).foldlM Node.addSection _ = _
      rw [List.foldlM_append, hbody]
      show (itemSections [] name (tables.map .table)).foldlM Node.addSection _ = _
      rw [hbodies, List.append_assoc, List.singleton_append]
    · rw [Node.toTables, htable, htables]
      rfl

end

theorem isBuilt_tables {tables : List Table} (hne : tables ≠ [])
    (hnodup : ∀ entries ∈ tables, (entries.map (·.1)).Nodup)
    (hbuilt : ∀ entries ∈ tables, ∀ entry ∈ entries, entry.2.isBlock = true → entry.2.IsBuilt) :
    (Value.array (tables.map .table)).IsBuilt := by
  intro held name hname
  obtain ⟨entries, tables, rfl⟩ := List.exists_cons_of_ne_nil hne
  obtain ⟨hfirst, hnodup⟩ := List.forall_mem_cons.1 hnodup
  obtain ⟨hfirstBuilt, hbuilt⟩ := List.forall_mem_cons.1 hbuilt
  obtain ⟨body, hbody, htable⟩ := exists_body_item hfirst hfirstBuilt hname []
  obtain ⟨bodies, hbodies, htables⟩ := exists_items hname hnodup hbuilt [body]
  refine ⟨.items (body :: bodies), ?_, ?_⟩
  · rw [sections_tables hne, List.map_cons, itemSections, List.cons_append, List.foldlM_cons,
      Node.addSection_item hname (addPairs_linePairs hfirst)]
    show (sectionsIn [name] entries ++ _).foldlM Node.addSection _ = _
    rw [List.foldlM_append]
    rw [List.nil_append] at hbody
    rw [hbody]
    exact hbodies
  · rw [Node.toValue, Node.toTables, htable, htables]
    rfl

/-- Every value that is read back and has blocks is built again from its sections. -/
theorem isBuilt_of_isWritable {room : Nat} {v : Value} (h : v.IsWritable room)
    (hblock : v.isBlock = true) : v.IsBuilt := by
  induction h with
  | line hline =>
    rw [isBlock_of_isLine hline] at hblock
    cases hblock
  | table hnodup _ ih => exact isBuilt_table hnodup ih
  | tables hne hnodup _ ih => exact isBuilt_tables hne hnodup ih

/-- A table is read back from its text, in the order of the text. -/
theorem parse?_render {entries : Table} (hnodup : (entries.map (·.1)).Nodup)
    (h : ∀ entry ∈ entries, entry.2.IsWritable nestingLimit) :
    Table.parse? (Table.render entries) = some (arrange entries) := by
  have hparts : ∀ part ∈ sectionsIn [] entries, part.IsBlock := by
    intro part hpart
    obtain ⟨entry, hentry, hpart⟩ := mem_sectionsIn hpart
    exact isBlock_of_mem_sections (h entry hentry) (by simp) hpart
  obtain ⟨body, hbody, htable⟩ :=
    exists_body hnodup fun entry hentry => isBuilt_of_isWritable (h entry hentry)
  rw [parse?_of_outline? (outline?_render (fun _ => isLine_of_mem_linePairs h) hparts)]
  unfold document?
  rw [addPairs_linePairs hnodup]
  show ((sectionsIn [] entries).foldlM Node.addSection (lineNodes entries)).bind _ = _
  rw [hbody, ← htable]
  rfl

end PackagePlan.Toml
