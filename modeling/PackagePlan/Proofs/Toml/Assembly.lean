/-
  How the statements of a written document build its table. The last entry of a table is a hole: a
  section under its name acts on what stands there and leaves the entries before it alone
  (`foldlM_under`). So whatever the sections of a table build from nothing, they build in its
  place in a larger document.
-/
import PackagePlan.Toml.Assembly

namespace PackagePlan.Toml

namespace Node

/-! ## Entries -/

/-- The names of the entries. -/
abbrev names (entries : Entries) : List String := entries.map (·.1)

theorem lookup_of_not_mem {α : Type} {entries : List (String × α)} {name : String}
    (h : name ∉ entries.map (·.1)) : entries.lookup name = none := by
  rw [List.lookup_eq_none_iff]
  intro entry hentry
  rw [bne_iff_ne]
  rintro rfl
  exact h (List.mem_map_of_mem hentry)

theorem lookup_concat {entries : Entries} {name : String} (h : name ∉ names entries)
    (node : Node) : (entries ++ [(name, node)]).lookup name = some node := by
  rw [List.lookup_append, lookup_of_not_mem h, Option.none_or, List.lookup_cons_self]

theorem set_concat {entries : Entries} {name : String} (h : name ∉ names entries)
    (old new : Node) : set name new (entries ++ [(name, old)]) = entries ++ [(name, new)] := by
  induction entries with
  | nil => simp [set]
  | cons entry entries ih =>
    obtain ⟨key, held⟩ := entry
    unfold names at h
    rw [List.map_cons, List.mem_cons, not_or] at h
    rw [List.cons_append, set, if_neg (Ne.symm h.1), ih h.2]
    rfl

/-- Pairs whose keys have no dots become the entries, in their order. -/
theorem addPairs_eq {held : Entries} {pairs : List Pair} (hway : ∀ pair ∈ pairs, pair.way = [])
    (hnodup : (pairs.map Pair.name).Nodup)
    (hnew : ∀ pair ∈ pairs, pair.name ∉ names held) :
    addPairs held pairs = some (held ++ pairs.map fun pair => (pair.name, .value pair.value)) := by
  induction pairs generalizing held with
  | nil => simp [addPairs]
  | cons pair pairs ih =>
    obtain ⟨hfirst, hway⟩ := List.forall_mem_cons.1 hway
    obtain ⟨hother, hnodup⟩ := List.nodup_cons.1 hnodup
    obtain ⟨hname, hnew⟩ := List.forall_mem_cons.1 hnew
    have hadd : addPair held pair = some (held ++ [(pair.name, .value pair.value)]) := by
      unfold addPair
      rw [hfirst, update, lookup_of_not_mem hname]
      rfl
    have hfresh : ∀ other ∈ pairs,
        other.name ∉ names (held ++ [(pair.name, .value pair.value)]) := by
      intro other hmem
      unfold names
      rw [List.map_append, List.mem_append, not_or]
      refine ⟨hnew other hmem, ?_⟩
      rw [List.map_singleton, List.mem_singleton]
      intro heq
      have hname : other.name ∈ pairs.map Pair.name := List.mem_map_of_mem hmem
      rw [heq] at hname
      exact hother hname
    have hrest := ih hway hnodup hfresh
    unfold addPairs at hrest ⊢
    rw [List.foldlM_cons, hadd]
    show pairs.foldlM addPair _ = _
    rw [hrest]
    simp

/-! ## Sections under a name -/

end Node

/-- A header inside the table of a name. -/
def Header.under (name : String) : Header → Header
  | table way last => table (name :: way) last
  | item way last => item (name :: way) last

/-- A section inside the table of a name. -/
def Section.under (name : String) (part : Section) : Section :=
  { part with header := part.header.under name }

namespace Node

theorem openSection_under (name : String) (part : Section) :
    openSection (part.under name) = openSection part := by
  funext parent
  obtain ⟨header, pairs⟩ := part
  cases header <;> rfl

theorem way_under (name : String) (part : Section) :
    (part.under name).header.way = name :: part.header.way := by
  obtain ⟨header, pairs⟩ := part
  cases header <;> rfl

/-- A section under a new name opens a table for it. -/
theorem addSection_under_new {entries : Entries} {name : String} (h : name ∉ names entries)
    (part : Section) : addSection entries (part.under name) =
      (addSection [] part).map fun inner => entries ++ [(name, .table true false inner)] := by
  unfold addSection
  rw [way_under, openSection_under, update, lookup_of_not_mem h]

/-- A section under the name of the last entry changes the table there. -/
theorem addSection_under_table {entries : Entries} {name : String} (h : name ∉ names entries)
    (implicit : Bool) (inner : Entries) (part : Section) :
    addSection (entries ++ [(name, .table implicit false inner)]) (part.under name) =
      (addSection inner part).map fun inner =>
        entries ++ [(name, .table implicit false inner)] := by
  unfold addSection
  rw [way_under, openSection_under, update, lookup_concat h]
  simp only [Bool.false_and, Bool.false_eq_true, if_false, set_concat h]

/-- A section under the name of the last entry changes the last table of the array there. -/
theorem addSection_under_items {entries : Entries} {name : String} (h : name ∉ names entries)
    (tables : List Entries) (last : Entries) (part : Section) :
    addSection (entries ++ [(name, .items (tables ++ [last]))]) (part.under name) =
      (addSection last part).map fun inner => entries ++ [(name, .items (tables ++ [inner]))] := by
  unfold addSection
  rw [way_under, openSection_under, update, lookup_concat h]
  simp only [List.getLast?_concat, List.dropLast_concat, set_concat h]

/-- Sections under the name of a hole build in the hole what they build from its contents. -/
theorem foldlM_under {hole : Entries → Entries} {name : String}
    (h : ∀ inner part,
      addSection (hole inner) (part.under name) = (addSection inner part).map hole)
    (inner : Entries) (parts : List Section) :
    (parts.map (Section.under name)).foldlM addSection (hole inner) =
      (parts.foldlM addSection inner).map hole := by
  induction parts generalizing inner with
  | nil => rfl
  | cons part parts ih =>
    rw [List.map_cons, List.foldlM_cons, List.foldlM_cons, h]
    cases addSection inner part with
    | none => rfl
    | some inner => exact ih inner

/-- Sections under a new name build in a table of that name what they build from nothing. -/
theorem foldlM_under_new {entries : Entries} {name : String} (h : name ∉ names entries)
    {parts : List Section} (hparts : parts ≠ []) :
    (parts.map (Section.under name)).foldlM addSection entries =
      (parts.foldlM addSection []).map fun inner =>
        entries ++ [(name, .table true false inner)] := by
  obtain ⟨part, parts, rfl⟩ := List.exists_cons_of_ne_nil hparts
  rw [List.map_cons, List.foldlM_cons, List.foldlM_cons, addSection_under_new h]
  cases addSection [] part with
  | none => rfl
  | some inner => exact foldlM_under (addSection_under_table h true) inner parts

/-! ## Headers -/

/-- The header of a table opens it at the end. -/
theorem addSection_table {entries : Entries} {name : String} (h : name ∉ names entries)
    {pairs : List Pair} {body : Entries} (hbody : addPairs [] pairs = some body) :
    addSection entries ⟨.table [] name, pairs⟩ =
      some (entries ++ [(name, .table false false body)]) := by
  unfold addSection
  show openSection ⟨.table [] name, pairs⟩ entries = _
  unfold openSection
  simp only [lookup_of_not_mem h, hbody, Option.map_some]

/-- The first header of an array of tables opens the array at the end. -/
theorem addSection_item {entries : Entries} {name : String} (h : name ∉ names entries)
    {pairs : List Pair} {body : Entries} (hbody : addPairs [] pairs = some body) :
    addSection entries ⟨.item [] name, pairs⟩ = some (entries ++ [(name, .items [body])]) := by
  unfold addSection
  show openSection ⟨.item [] name, pairs⟩ entries = _
  unfold openSection
  simp only [lookup_of_not_mem h, hbody, Option.map_some]

/-- Every further header of an array of tables adds a table to the array. -/
theorem addSection_item_next {entries : Entries} {name : String} (h : name ∉ names entries)
    (tables : List Entries) {pairs : List Pair} {body : Entries}
    (hbody : addPairs [] pairs = some body) :
    addSection (entries ++ [(name, .items tables)]) ⟨.item [] name, pairs⟩ =
      some (entries ++ [(name, .items (tables ++ [body]))]) := by
  unfold addSection
  show openSection ⟨.item [] name, pairs⟩ (entries ++ [(name, .items tables)]) = _
  unfold openSection
  simp only [lookup_concat h, hbody, Option.map_some, set_concat h]

end Node

end PackagePlan.Toml
