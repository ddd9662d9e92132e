/-
  A catalog holds one entry for each key and lists them in ascending order of the keys. The order
  is part of the type, so two catalogs with the same entries are equal.
-/

namespace PackagePlan

/-- Entries under keys that strictly ascend. -/
structure Catalog (κ α : Type) [Ord κ] where
  /-- The entries, smallest key first. -/
  entries : List (κ × α)
  /-- No key is repeated and each is below those after it. -/
  ascending : entries.Pairwise fun a b => compare a.1 b.1 = .lt := by simp

namespace Catalog

variable {κ α β : Type} [Ord κ]

/-- The catalog without entries. -/
def empty : Catalog κ α := { entries := [] }

instance : Inhabited (Catalog κ α) := ⟨empty⟩

instance : EmptyCollection (Catalog κ α) := ⟨empty⟩

@[ext]
theorem ext {a b : Catalog κ α} (h : a.entries = b.entries) : a = b := by
  cases a; cases b; simp_all

instance [DecidableEq κ] [DecidableEq α] : DecidableEq (Catalog κ α) := fun a b =>
  decidable_of_iff (a.entries = b.entries) ⟨ext, fun h => h ▸ rfl⟩

/-- Whether there is no entry. -/
def isEmpty (c : Catalog κ α) : Bool := c.entries.isEmpty

/-- The number of entries. -/
def size (c : Catalog κ α) : Nat := c.entries.length

/-- The keys, smallest first. -/
def keys (c : Catalog κ α) : List κ := c.entries.map (·.1)

/-- The entry under a key. -/
def get? (c : Catalog κ α) (key : κ) : Option α :=
  (c.entries.find? fun entry => compare entry.1 key == .eq).map (·.2)

/-- Place an entry in a list of entries, in front of the first larger key. -/
def place (key : κ) (value : α) : List (κ × α) → List (κ × α)
  | [] => [(key, value)]
  | entry :: rest =>
    match compare key entry.1 with
    | .lt => (key, value) :: entry :: rest
    | .eq => (key, value) :: rest
    | .gt => entry :: place key value rest

theorem mem_place {key : κ} {value : α} {entries : List (κ × α)} {entry : κ × α}
    (h : entry ∈ place key value entries) : entry = (key, value) ∨ entry ∈ entries := by
  induction entries with
  | nil => simpa [place] using h
  | cons first rest ih =>
    simp only [place] at h
    split at h
    · simpa using h
    · rcases List.mem_cons.1 h with h | h
      · exact .inl h
      · exact .inr (List.mem_cons_of_mem _ h)
    · rcases List.mem_cons.1 h with h | h
      · exact .inr (h ▸ List.mem_cons_self ..)
      · exact (ih h).imp_right (List.mem_cons_of_mem _)

theorem place_ascending [Std.TransOrd κ] {key : κ} {value : α} {entries : List (κ × α)}
    (h : entries.Pairwise fun a b => compare a.1 b.1 = .lt) :
    (place key value entries).Pairwise fun a b => compare a.1 b.1 = .lt := by
  induction entries with
  | nil => simp [place]
  | cons first rest ih =>
    obtain ⟨below, tail⟩ := List.pairwise_cons.1 h
    simp only [place]
    split
    · next hlt =>
      refine List.pairwise_cons.2 ⟨fun entry hentry => ?_, h⟩
      rcases List.mem_cons.1 hentry with rfl | hentry
      · exact hlt
      · exact Std.TransCmp.lt_trans hlt (below _ hentry)
    · next heq =>
      refine List.pairwise_cons.2 ⟨fun entry hentry => ?_, tail⟩
      exact Std.TransCmp.lt_of_eq_of_lt heq (below _ hentry)
    · next hgt =>
      refine List.pairwise_cons.2 ⟨fun entry hentry => ?_, ih tail⟩
      rcases mem_place hentry with rfl | hentry
      · exact Std.OrientedCmp.lt_of_gt hgt
      · exact below _ hentry

/-- Add an entry, replacing the one under the same key. -/
def insert [Std.TransOrd κ] (c : Catalog κ α) (key : κ) (value : α) : Catalog κ α :=
  { entries := place key value c.entries, ascending := place_ascending c.ascending }

/-- The catalog of a list of entries; of entries with one key the last counts. -/
def ofList [Std.TransOrd κ] (entries : List (κ × α)) : Catalog κ α :=
  entries.foldl (fun c entry => c.insert entry.1 entry.2) empty

/-- Change every entry and keep the keys. -/
def map (f : α → β) (c : Catalog κ α) : Catalog κ β :=
  { entries := c.entries.map fun entry => (entry.1, f entry.2)
    ascending := List.pairwise_map.2 c.ascending }

end Catalog

end PackagePlan
