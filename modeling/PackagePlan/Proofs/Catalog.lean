/-
  Catalogs as sets of entries. Two catalogs with the same entries are equal (`ext_of_mem`), an
  insertion replaces the entry of its key and leaves the others (`mem_insert`), and a catalog is
  built again from its own entries, in any order (`ofList_of_perm`).
-/
import Mathlib.Data.List.Nodup
import PackagePlan.Catalog

namespace PackagePlan.Catalog

variable {κ α : Type} [Ord κ]

theorem eq_empty_of_isEmpty {c : Catalog κ α} (h : c.isEmpty = true) : ∅ = c :=
  ext (List.isEmpty_iff.1 h).symm

variable [Std.TransOrd κ]

theorem ne_of_lt {a b : κ} (h : compare a b = .lt) : a ≠ b := by
  rintro rfl
  have hself : compare a a = .eq := Std.ReflCmp.compare_self
  rw [hself] at h
  cases h

theorem ext_of_mem {a b : Catalog κ α} (h : ∀ entry, entry ∈ a.entries ↔ entry ∈ b.entries) :
    a = b := by
  have hnodup : ∀ c : Catalog κ α, c.entries.Nodup := fun c =>
    c.ascending.imp fun hlt heq => ne_of_lt hlt (congrArg Prod.fst heq)
  refine ext (List.Perm.eq_of_pairwise ?_ a.ascending b.ascending
    ((List.perm_ext_iff_of_nodup (hnodup a) (hnodup b)).2 h))
  intro first second _ _ hlt hgt
  rw [Std.OrientedCmp.gt_of_lt hgt] at hlt
  cases hlt

theorem nodup_keys (c : Catalog κ α) : (c.entries.map (·.1)).Nodup :=
  List.pairwise_map.2 (c.ascending.imp ne_of_lt)

theorem mem_place_iff [Std.LawfulEqOrd κ] {key : κ} {value : α} {entries : List (κ × α)}
    (h : entries.Pairwise fun a b => compare a.1 b.1 = .lt) {entry : κ × α} :
    entry ∈ place key value entries ↔ entry = (key, value) ∨ entry ∈ entries ∧ entry.1 ≠ key := by
  induction entries with
  | nil => simp [place]
  | cons first rest ih =>
    obtain ⟨below, tail⟩ := List.pairwise_cons.1 h
    rw [place]
    split
    · next hlt =>
      have hne : ∀ other ∈ first :: rest, other.1 ≠ key := by
        intro other hother
        refine Ne.symm (ne_of_lt ?_)
        rcases List.mem_cons.1 hother with rfl | hother
        · exact hlt
        · exact Std.TransCmp.lt_trans hlt (below other hother)
      rw [List.mem_cons]
      exact or_congr_right ⟨fun hmem => ⟨hmem, hne entry hmem⟩, fun hmem => hmem.1⟩
    · next heq =>
      obtain rfl : key = first.1 := Std.LawfulEqCmp.eq_of_compare heq
      rw [List.mem_cons]
      refine or_congr_right ⟨fun hmem => ?_, fun hmem => ?_⟩
      · exact ⟨List.mem_cons_of_mem _ hmem, Ne.symm (ne_of_lt (below entry hmem))⟩
      · rcases List.mem_cons.1 hmem.1 with rfl | hrest
        · exact absurd rfl hmem.2
        · exact hrest
    · next hgt =>
      have hne : first.1 ≠ key := ne_of_lt (Std.OrientedCmp.lt_of_gt hgt)
      rw [List.mem_cons, List.mem_cons, ih tail]
      constructor
      · rintro (rfl | rfl | hmem)
        · exact .inr ⟨.inl rfl, hne⟩
        · exact .inl rfl
        · exact .inr ⟨.inr hmem.1, hmem.2⟩
      · rintro (rfl | ⟨rfl | hmem, hkey⟩)
        · exact .inr (.inl rfl)
        · exact .inl rfl
        · exact .inr (.inr ⟨hmem, hkey⟩)

variable [Std.LawfulEqOrd κ]

/-- What is found under a key is the entry of that key. -/
theorem get?_eq_some_iff {c : Catalog κ α} {key : κ} {value : α} :
    c.get? key = some value ↔ (key, value) ∈ c.entries := by
  have hkey : ∀ entry : κ × α, (compare entry.1 key == .eq) = true ↔ entry.1 = key := by
    intro entry
    rw [beq_iff_eq]
    exact Std.LawfulEqOrd.compare_eq_iff_eq
  unfold get?
  rw [Option.map_eq_some_iff]
  constructor
  · rintro ⟨entry, hfind, rfl⟩
    have hsame := List.find?_some hfind
    obtain rfl := (hkey entry).1 hsame
    exact List.mem_of_find?_eq_some hfind
  · intro hmem
    have hsome : (c.entries.find? fun entry => compare entry.1 key == .eq).isSome = true :=
      List.find?_isSome.2 ⟨(key, value), hmem, (hkey _).2 rfl⟩
    obtain ⟨entry, hfind⟩ := Option.isSome_iff_exists.1 hsome
    have hsame := List.find?_some hfind
    have hentry : entry = (key, value) := List.inj_on_of_nodup_map c.nodup_keys
      (List.mem_of_find?_eq_some hfind) hmem ((hkey entry).1 hsame)
    exact ⟨entry, hfind, congrArg Prod.snd hentry⟩

theorem mem_insert {c : Catalog κ α} {key : κ} {value : α} {entry : κ × α} :
    entry ∈ (c.insert key value).entries ↔
      entry = (key, value) ∨ entry ∈ c.entries ∧ entry.1 ≠ key :=
  mem_place_iff c.ascending

theorem get?_insert [DecidableEq κ] {c : Catalog κ α} {key other : κ} {value : α} :
    (c.insert key value).get? other = if other = key then some value else c.get? other := by
  refine Option.ext fun found => ?_
  rw [get?_eq_some_iff, mem_insert]
  by_cases hkey : other = key
  · simp [hkey, eq_comm]
  · simp [hkey, get?_eq_some_iff]

/-- Entries under keys of their own are all there in the end, whatever was there before. -/
theorem mem_foldl_insert {entries : List (κ × α)} (h : (entries.map (·.1)).Nodup)
    {c : Catalog κ α} {entry : κ × α} :
    entry ∈ (entries.foldl (fun c e => c.insert e.1 e.2) c).entries ↔
      entry ∈ entries ∨ entry ∈ c.entries ∧ entry.1 ∉ entries.map (·.1) := by
  induction entries generalizing c with
  | nil => simp
  | cons first rest ih =>
    obtain ⟨hfirst, hrest⟩ := List.nodup_cons.1 h
    rw [List.foldl_cons, ih hrest, mem_insert, List.mem_cons, List.map_cons, List.mem_cons, not_or]
    constructor
    · rintro (hmem | ⟨rfl | ⟨hmem, hkey⟩, hout⟩)
      · exact .inl (.inr hmem)
      · exact .inl (.inl rfl)
      · exact .inr ⟨hmem, hkey, hout⟩
    · rintro ((rfl | hmem) | ⟨hmem, hkey, hout⟩)
      · exact .inr ⟨.inl rfl, hfirst⟩
      · exact .inl hmem
      · exact .inr ⟨.inr ⟨hmem, hkey⟩, hout⟩

theorem mem_ofList {entries : List (κ × α)} (h : (entries.map (·.1)).Nodup) {entry : κ × α} :
    entry ∈ (ofList entries).entries ↔ entry ∈ entries := by
  unfold ofList
  rw [mem_foldl_insert h]
  simp [empty]

/-- A catalog is built again from its own entries, in any order. -/
theorem ofList_of_perm {c : Catalog κ α} {entries : List (κ × α)} (h : entries.Perm c.entries) :
    ofList entries = c :=
  ext_of_mem fun _ => (mem_ofList ((h.map _).nodup_iff.2 c.nodup_keys)).trans h.mem_iff

end PackagePlan.Catalog
