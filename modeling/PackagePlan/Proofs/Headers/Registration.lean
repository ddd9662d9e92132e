/-
  What an index of headers remembers. A registration replaces the record of its target and leaves
  the records of all others (`surface?_register`), so after any history of registrations a target
  has the record of its last one (`surface?_registerAll`). The list of names and the records are
  kept apart; every registration keeps them in step (`IsListed.register`). What a record offers and
  knows is said of the registration itself, without the sorted lists (`offers_surface`,
  `knows_surface`).
-/
import Mathlib.Data.List.Induction
import PackagePlan.Headers
import PackagePlan.Proofs.Catalog
import PackagePlan.Proofs.Path.Ordering

namespace PackagePlan

/-- One registration: a target with its source set and everything it depends on. -/
structure Registration where
  target : Target
  sources : SourceSet
  closure : List String

namespace Registration

/-- The record that the registration leaves. -/
def surface (registration : Registration) : HeaderSurface :=
  .of registration.target registration.sources registration.closure

/-- The registration that counts for a name: the last one under it. -/
def latest? (history : List Registration) (name : String) : Option Registration :=
  history.reverse.find? (·.target.name == name)

/-- Whether dependents may include a header of the target under this name. -/
def Offers (registration : Registration) (header : Path) : Prop :=
  ∃ offered ∈ registration.sources.publicHeaders, header.components = offered.components

/-- Whether a file of the target is one of its public headers. -/
def Publishes (registration : Registration) (file : Path) : Prop :=
  ∃ offered ∈ registration.sources.publicHeaders,
    file.components = (HeaderSurface.fileOf registration.sources offered).components

/-- Whether the target has a header of this name: the name is that of a public header, or the path
    of a header that is not public, or what is left of the path of a header below one of the
    target's search paths. -/
def Knows (registration : Registration) (header : Path) : Prop :=
  registration.Offers header ∨
  ∃ file ∈ registration.sources.headers,
    (¬registration.Publishes file ∧ header.components = file.components) ∨
    ∃ dir ∈ registration.target.privateSearchPaths, ∃ rest,
      file.relativeTo? dir = some rest ∧ header.components = rest.components

variable {registration : Registration} {header : Path}

theorem offers_surface : registration.surface.offers header = true ↔ registration.Offers header := by
  unfold HeaderSurface.offers surface HeaderSurface.of Offers
  dsimp only
  rw [Path.memOf_sorted, Path.memOf_iff]
  simp only [List.mem_reverse]

theorem memOf_publicFiles {file : Path} :
    file.memOf (registration.sources.publicHeaders.map
      (HeaderSurface.fileOf registration.sources)) = true ↔ registration.Publishes file := by
  rw [Path.memOf_iff]
  unfold Publishes
  simp only [List.mem_map, exists_exists_and_eq_and]

theorem knows_surface : registration.surface.knows header = true ↔ registration.Knows header := by
  have hoffers : header.memOf registration.surface.offered = true ↔ registration.Offers header :=
    offers_surface
  unfold HeaderSurface.knows Knows
  rw [Bool.or_eq_true, hoffers]
  refine or_congr_right ?_
  unfold surface HeaderSurface.of
  dsimp only
  rw [Path.memOf_sorted, Path.memOf_iff]
  constructor
  · intro h
    obtain ⟨inner, hinner, hsame⟩ := h
    obtain ⟨file, hfile, hinner⟩ := List.mem_flatMap.1 hinner
    refine ⟨file, hfile, ?_⟩
    unfold HeaderSurface.internalNames at hinner
    rcases List.mem_append.1 hinner with hinner | hinner
    · left
      split at hinner
      · cases hinner
      · next hpublic =>
        rw [memOf_publicFiles] at hpublic
        rw [List.mem_singleton.1 hinner] at hsame
        exact ⟨hpublic, hsame⟩
    · right
      obtain ⟨dir, hdir, hrest⟩ := List.mem_filterMap.1 hinner
      exact ⟨dir, hdir, inner, hrest, hsame⟩
  · intro h
    obtain ⟨file, hfile, hnamed⟩ := h
    have hinner : ∃ inner ∈ HeaderSurface.internalNames (registration.sources.publicHeaders.map
        (HeaderSurface.fileOf registration.sources)) registration.target.privateSearchPaths file,
        header.components = inner.components := by
      unfold HeaderSurface.internalNames
      rcases hnamed with ⟨hpublic, hsame⟩ | ⟨dir, hdir, rest, hrest, hsame⟩
      · rw [← memOf_publicFiles] at hpublic
        rw [if_neg hpublic]
        exact ⟨file, List.mem_append_left _ (List.mem_singleton_self file), hsame⟩
      · exact ⟨rest, List.mem_append_right _ (List.mem_filterMap.2 ⟨dir, hdir, hrest⟩), hsame⟩
    obtain ⟨inner, hmem, hsame⟩ := hinner
    exact ⟨inner, List.mem_flatMap.2 ⟨file, hfile, hmem⟩, hsame⟩

theorem latest?_concat (history : List Registration) (last : Registration) (name : String) :
    latest? (history ++ [last]) name =
      if last.target.name = name then some last else latest? history name := by
  unfold latest?
  rw [List.reverse_append, List.reverse_singleton, List.singleton_append, List.find?_cons]
  by_cases hname : last.target.name = name
  · rw [if_pos hname, beq_iff_eq.2 hname]
  · rw [if_neg hname, beq_false_of_ne hname]

end Registration

namespace HeaderIndex

/-! ## One registration -/

/-- A registration gives its target a new record and leaves the records of all others. -/
theorem surface?_register (index : HeaderIndex) (target : Target) (sources : SourceSet)
    (closure : List String) (name : String) :
    (index.register target sources closure).surface? name =
      if target.name = name then some (.of target sources closure) else index.surface? name := by
  unfold surface? register
  rw [Catalog.get?_insert]
  simp only [eq_comm]

theorem isRegistered_iff {index : HeaderIndex} {name : String} :
    index.isRegistered name = true ↔ ∃ surface, index.surface? name = some surface :=
  Option.isSome_iff_exists

theorem isRegistered_register (index : HeaderIndex) (target : Target) (sources : SourceSet)
    (closure : List String) (name : String) :
    (index.register target sources closure).isRegistered name = true ↔
      name = target.name ∨ index.isRegistered name = true := by
  rw [isRegistered_iff, isRegistered_iff, surface?_register]
  by_cases hname : target.name = name
  · simp [hname]
  · simp [hname, Ne.symm hname]

/-- A registration adds its name at the end, unless the name is there. -/
theorem names_register (index : HeaderIndex) (target : Target) (sources : SourceSet)
    (closure : List String) :
    (index.register target sources closure).names =
      if index.isRegistered target.name then index.names else index.names ++ [target.name] := rfl

/-- The list of an index holds the names that have a record, each once. -/
structure IsListed (index : HeaderIndex) : Prop where
  nodup : index.names.Nodup
  mem_iff : ∀ name, name ∈ index.names ↔ index.isRegistered name = true

theorem isListed_empty : IsListed {} where
  nodup := .nil
  mem_iff _ := ⟨fun hmem => (nomatch hmem), fun hregistered => (nomatch hregistered)⟩

/-- Every registration keeps the list in step with the records. -/
theorem IsListed.register {index : HeaderIndex} (h : index.IsListed) (target : Target)
    (sources : SourceSet) (closure : List String) :
    (index.register target sources closure).IsListed := by
  by_cases hknown : index.isRegistered target.name = true
  · have hnames : (index.register target sources closure).names = index.names := by
      rw [names_register, if_pos hknown]
    refine ⟨hnames ▸ h.nodup, fun name => ?_⟩
    rw [hnames, isRegistered_register, h.mem_iff]
    exact ⟨.inr, fun hname => hname.elim (fun heq => heq ▸ hknown) id⟩
  · have hnames : (index.register target sources closure).names =
        index.names ++ [target.name] := by
      rw [names_register, if_neg hknown]
    constructor
    · rw [hnames]
      refine List.nodup_append.2
        ⟨h.nodup, List.pairwise_singleton _ _, fun other hother last hlast => ?_⟩
      rw [List.mem_singleton.1 hlast]
      exact ne_of_mem_of_not_mem hother (mt (h.mem_iff _).1 hknown)
    · intro name
      rw [hnames, isRegistered_register, List.mem_append, h.mem_iff, List.mem_singleton, or_comm]

/-- A target that was just registered has include directories. -/
theorem exists_includeDirs_register (index : HeaderIndex) (target : Target) (sources : SourceSet)
    (closure : List String) :
    ∃ dirs, (index.register target sources closure).includeDirs target.name = .ok dirs := by
  have hsurface : (index.register target sources closure).surface? target.name =
      some (.of target sources closure) := by rw [surface?_register, if_pos rfl]
  unfold includeDirs
  rw [hsurface]
  exact ⟨_, rfl⟩

/-! ## A history of registrations -/

/-- The index after registrations one after the other. -/
def registerAll (history : List Registration) : HeaderIndex :=
  history.foldl (fun index registration =>
    index.register registration.target registration.sources registration.closure) {}

theorem registerAll_concat (history : List Registration) (last : Registration) :
    registerAll (history ++ [last]) =
      (registerAll history).register last.target last.sources last.closure := by
  unfold registerAll
  rw [List.foldl_append, List.foldl_cons, List.foldl_nil]

theorem isListed_registerAll (history : List Registration) : (registerAll history).IsListed := by
  induction history using List.reverseRecOn with
  | nil => exact isListed_empty
  | append_singleton history last ih =>
    rw [registerAll_concat]
    exact ih.register ..

/-- The record of a target is that of its last registration. -/
theorem surface?_registerAll (history : List Registration) (name : String) :
    (registerAll history).surface? name =
      (Registration.latest? history name).map Registration.surface := by
  induction history using List.reverseRecOn with
  | nil => rfl
  | append_singleton history last ih =>
    rw [registerAll_concat, surface?_register, Registration.latest?_concat, ih]
    split
    · rfl
    · rfl

end HeaderIndex

end PackagePlan
