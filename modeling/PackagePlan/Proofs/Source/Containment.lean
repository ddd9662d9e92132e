/-
  Whether a target stays in its own directory. The files of a source set are plain paths below the
  target directory, and each lies in one of the source roots. The walk has one way to lose a valid
  target: seen from an empty package root, a `.` in front of the target directory stands where the
  first name of every file is expected (`Target.IsMislaid`), so that all its files are taken to lie
  outside. Main statement: `resolve_contained`.
-/
import PackagePlan.Proofs.Source.Spelling

namespace PackagePlan

open PackagePlan.Path

/-- The files that the walks of a target come to: those under its source roots and those under its
public headers directory. -/
def Target.Holds (tree : Tree) (packageRoot : Path) (target : Target) (found : Path) : Prop :=
  ∃ place, (place ∈ target.sourceRoots ∨ target.publicHeadersDir? = some place) ∧
    tree.Holds (packageRoot.join place) found

namespace SourceSet

/-- How far a target keeps to its own directory. -/
structure Contained (tree : Tree) (packageRoot : Path) (target : Target) : Prop where
  /-- Only files of a mislaid target are taken to lie outside its directory. -/
  stray : ∀ file dir,
    resolve tree packageRoot target = .error (.invalidTarget (.strayFile file dir)) →
      target.IsMislaid packageRoot
  /-- A mislaid target with files does not resolve. -/
  mislaid : target.IsMislaid packageRoot → ∀ found, target.Holds tree packageRoot found →
    ∀ set, resolve tree packageRoot target ≠ .ok set
  /-- If its directory is there and its shortest spelling resolves, the first file that is found is
  taken to lie outside. -/
  lost : target.IsMislaid packageRoot → (∃ found, target.Holds tree packageRoot found) →
    tree.isDirectory (packageRoot.join target.path) = true →
    ∀ set, resolve tree packageRoot { target with path := target.path.normalize } = .ok set →
      ∃ file, target.Holds tree packageRoot file ∧ resolve tree packageRoot target =
        .error (.invalidTarget (.strayFile file (packageRoot.join target.path)))
  /-- A file is a relative path without `..`, and below the target directory it lies in a source
  root. -/
  files : ∀ set, resolve tree packageRoot target = .ok set → ∀ p ∈ set.files, p.IsPlain ∧
    ∃ sourceRoot ∈ target.sourceRoots,
      (set.root.join p).startsWith (packageRoot.join sourceRoot) = true

variable {tree : Tree} {packageRoot root root' start : Path} {target : Target}

/-! ## Files that are taken to lie outside -/

theorem exists_of_mem_places (hvalid : target.isValid = true) {place : Path}
    (hplace : place ∈ target.sourceRoots ∨ target.publicHeadersDir? = some place) :
    ∃ more, (∀ c ∈ more, c.IsName) ∧ place = ofComponents (target.path.inner ++ more) := by
  rcases hplace with hroot | hdir
  · exact target.exists_of_mem_sourceRoots hvalid hroot
  · exact target.exists_of_publicHeadersDir? hvalid hdir

/-- A file of the target is not seen from its directory exactly when the target is mislaid. -/
theorem relativeTo?_eq_none_iff (hvalid : target.isValid = true) {found : Path}
    (hfound : target.Holds tree packageRoot found) :
    found.relativeTo? (packageRoot.join target.path) = none ↔ target.IsMislaid packageRoot := by
  obtain ⟨place, hplace, hholds⟩ := hfound
  obtain ⟨more, hmore, rfl⟩ := exists_of_mem_places hvalid hplace
  obtain ⟨steps, hsteps, rfl⟩ := exists_of_holds hvalid hmore hholds
  have hbelow : ∀ c ∈ more ++ steps, c.IsName := List.forall_mem_append.2 ⟨hmore, hsteps⟩
  have hnames := isStep_of_isName (isName_append hvalid hbelow)
  unfold relativeTo?
  rw [ite_eq_right_iff, startsWith_iff, components_along _ hnames,
    root_isPrefix_iff hvalid hbelow]
  simp

theorem seen_eq_stray {report : Except WalkFault Path} {file dir : Path}
    (h : seen root report = .error (.invalidTarget (.strayFile file dir))) :
    report = .ok file ∧ file.relativeTo? root = none := by
  unfold seen at h
  split at h
  · unfold seenFrom at h
    split at h
    · cases h
    · next hnone =>
      cases h
      exact ⟨rfl, hnone⟩
  · cases h

theorem listing_eq_stray {file dir : Path}
    (h : listing tree root start = .error (.invalidTarget (.strayFile file dir))) :
    tree.Holds start file ∧ file.relativeTo? root = none := by
  unfold listing at h
  obtain ⟨report, hreport, hseen⟩ := Outcome.exists_of_mapM_eq_error h
  obtain ⟨rfl, hnone⟩ := seen_eq_stray hseen
  exact ⟨Tree.holds_of_mem_filesUnder hreport, hnone⟩

/-- A file that is taken to lie outside is one of the target, and is not seen from its directory. -/
theorem exists_of_stray {file dir : Path}
    (h : resolve tree packageRoot target = .error (.invalidTarget (.strayFile file dir))) :
    target.Holds tree packageRoot file ∧
      file.relativeTo? (packageRoot.join target.path) = none := by
  rcases resolve_eq_error h with ⟨-, h⟩ | ⟨text, -, h⟩ | ⟨sourceRoot, hroot, h⟩ | h
  · cases h
  · unfold Exclusion.parse at h
    split at h <;> cases h
  · rcases filesIn_eq_error h with ⟨-, h⟩ | h
    · cases h
    · obtain ⟨hholds, hnone⟩ := listing_eq_stray h
      exact ⟨⟨sourceRoot, .inl hroot, hholds⟩, hnone⟩
  · obtain ⟨_, hmapped, ⟨-, h⟩ | h⟩ := headerCandidates_eq_error h
    · cases h
    · obtain ⟨dir, hdir, rfl⟩ := Option.map_eq_some_iff.1 hmapped
      obtain ⟨hholds, hnone⟩ := listing_eq_stray h
      exact ⟨⟨dir, .inr hdir, hholds⟩, hnone⟩

/-- A file of a target that resolves is seen from its directory. -/
theorem exists_of_resolve {set : SourceSet} (h : resolve tree packageRoot target = .ok set)
    {found : Path} (hfound : target.Holds tree packageRoot found) :
    ∃ p, found.relativeTo? (packageRoot.join target.path) = some p := by
  obtain ⟨exclusions, files, headers, -, -, hfiles, hheaders, -⟩ := resolve_eq_ok h
  obtain ⟨place, hroot | hdir, hholds⟩ := hfound
  · exact exists_of_candidates hfiles hroot hholds
  · rw [hdir] at hheaders
    obtain ⟨listed, -, hlisted, -⟩ := headerCandidates_eq_ok hheaders
    exact exists_of_listing hlisted hholds

/-! ## Lost by the spelling -/

/-- A walk that is fine from one directory can fail from another only at a file that is taken to lie
outside. -/
theorem stray_of_listing {paths : List Path} (h : listing tree root start = .ok paths)
    {error : BuildError} (h' : listing tree root' start = .error error) :
    ∃ file, tree.Holds start file ∧ error = .invalidTarget (.strayFile file root') := by
  have hread := error_not_mem h
  unfold listing at h'
  obtain ⟨report, hreport, hseen⟩ := Outcome.exists_of_mapM_eq_error h'
  cases report with
  | error fault => exact absurd hreport (hread fault)
  | ok file =>
    refine ⟨file, Tree.holds_of_mem_filesUnder hreport, ?_⟩
    unfold seen seenFrom at hseen
    dsimp only at hseen
    split at hseen
    · cases hseen
    · exact (Except.error.inj hseen).symm

/-- Where another spelling of a target resolves, its own can fail only at such a file, if the target
directory is there. -/
theorem stray_of_respelled {other : Target} (hspelled : target.Respells other)
    (hvalid : target.isValid = true)
    (hdirectory : tree.isDirectory (packageRoot.join target.path) = true) {set : SourceSet}
    (hset : resolve tree packageRoot other = .ok set) {error : BuildError}
    (h : resolve tree packageRoot target = .error error) :
    ∃ file, target.Holds tree packageRoot file ∧
      error = .invalidTarget (.strayFile file (packageRoot.join target.path)) := by
  obtain ⟨exclusions, files, headers, -, hexclusions, hfiles, hheaders, -⟩ := resolve_eq_ok hset
  rw [hspelled.exclude, hspelled.name] at hexclusions
  rw [hspelled.publicHeadersDir? hvalid] at hheaders
  obtain ⟨lists, hlists, -⟩ := Outcome.map_eq_ok.1 hfiles
  rw [hspelled.sourceRoots hvalid] at hlists
  rcases resolve_eq_error h with ⟨hnone, -⟩ | ⟨text, htext, h⟩ | ⟨sourceRoot, hroot, h⟩ | h
  · rw [hdirectory] at hnone
    cases hnone
  · obtain ⟨exclusion, hparse⟩ := Outcome.exists_of_mem_mapM hexclusions htext
    rw [hparse] at h
    cases h
  · obtain ⟨paths, hpaths⟩ := Outcome.exists_of_mem_mapM hlists hroot
    rcases filesIn_eq_error h with ⟨hmissing, -⟩ | h
    · rw [filesIn, hmissing] at hpaths
      cases hpaths
    · obtain ⟨file, hholds, rfl⟩ := stray_of_listing (filesIn_eq_ok hpaths) h
      exact ⟨file, ⟨sourceRoot, .inl hroot, hholds⟩, rfl⟩
  · obtain ⟨_, hmapped, h⟩ := headerCandidates_eq_error h
    rw [hmapped] at hheaders
    obtain ⟨listed, hthere, hlisted, -⟩ := headerCandidates_eq_ok hheaders
    obtain ⟨dir, hdir, rfl⟩ := Option.map_eq_some_iff.1 hmapped
    rcases h with ⟨hmissing, -⟩ | h
    · rw [hthere] at hmissing
      cases hmissing
    · obtain ⟨file, hholds, rfl⟩ := stray_of_listing hlisted h
      exact ⟨file, ⟨dir, .inr hdir, hholds⟩, rfl⟩

theorem respells_normalize (hvalid : target.isValid = true) :
    target.Respells { target with path := target.path.normalize } where
  record := rfl
  path := by
    have hsteps : ∀ c ∈ target.path.inner, c.IsStep := fun _ => isStep_of_mem_inner
    unfold Path.Respells
    rw [normalize_eq (target.isAbsolute_path hvalid),
      Target.undotted_eq_inner (target.isContained_path hvalid)]
    unfold undotted
    rw [filter_components (isAbsolute_ofComponents hsteps), inner_ofComponents hsteps]
  sources := List.forall₂_same.2 fun _ _ => rfl
  publicHeaders := by
    cases target.publicHeaders with
    | none => exact .none
    | some dir => exact .some rfl
  headerSearchPaths := List.forall₂_same.2 fun _ _ => rfl

/-! ## The main statement -/

/-- The files of a resolved target lie in its source roots, below its directory. -/
theorem files_contained (hvalid : target.isValid = true) {set : SourceSet}
    (h : resolve tree packageRoot target = .ok set) {p : Path} (hp : p ∈ set.files) :
    p.IsPlain ∧ ∃ sourceRoot ∈ target.sourceRoots,
      (set.root.join p).startsWith (packageRoot.join sourceRoot) = true := by
  obtain ⟨exclusions, files, headers, -, -, hfiles, -, rfl⟩ := resolve_eq_ok h
  have hmem : p ∈ files := (List.mem_filter.1 (mem_of_mem_sorted hp)).1
  obtain ⟨sourceRoot, hroot, found, hfound, hseen⟩ := (mem_candidates hfiles).1 hmem
  obtain ⟨more, hmore, rfl⟩ := target.exists_of_mem_sourceRoots hvalid hroot
  obtain ⟨hplain, -, hcomponents⟩ := components_of_seen hvalid hmore hfound hseen
  refine ⟨hplain, _, hroot, ?_⟩
  obtain ⟨steps, hsteps, rfl⟩ := hfound.exists_along
  rw [startsWith_iff, ← hcomponents, components_along _ (isStep_of_isName hsteps)]
  exact List.prefix_append _ _

/-- A valid target keeps to its own directory, and it is taken to have left it only when it is
mislaid. -/
theorem resolve_contained (hvalid : target.isValid = true) :
    Contained tree packageRoot target := by
  have hlost : ∀ found, target.IsMislaid packageRoot → target.Holds tree packageRoot found →
      ∀ set, resolve tree packageRoot target ≠ .ok set := by
    intro found hmislaid hfound set h
    obtain ⟨p, hseen⟩ := exists_of_resolve h hfound
    rw [(relativeTo?_eq_none_iff hvalid hfound).2 hmislaid] at hseen
    cases hseen
  refine
    { stray := fun file dir h => ?_
      mislaid := fun hmislaid found => hlost found hmislaid
      lost := fun hmislaid hfound hdirectory set hset => ?_
      files := fun set h p => files_contained hvalid h }
  · obtain ⟨hfound, hnone⟩ := exists_of_stray h
    exact (relativeTo?_eq_none_iff hvalid hfound).1 hnone
  · obtain ⟨found, hfound⟩ := hfound
    cases h : resolve tree packageRoot target with
    | ok set => exact absurd h (hlost found hmislaid hfound set)
    | error error =>
      obtain ⟨file, hfile, rfl⟩ :=
        stray_of_respelled (respells_normalize hvalid) hvalid hdirectory hset h
      exact ⟨file, hfile, rfl⟩

/-- A library that is declared with a `.` in front of its directory. -/
def dottedTarget : Target := { name := "t", path := ⟨"./src"⟩ }

def dottedTree : Tree := { root := .directory [("src", .directory [("a.c", .file "")])] }

/-- Seen from an empty package root its file is taken to lie outside. -/
theorem resolve_dotted_stray : dottedTarget.isValid = true ∧
    resolve dottedTree ⟨""⟩ dottedTarget =
      .error (.invalidTarget (.strayFile ⟨"src/a.c"⟩ ⟨"./src"⟩)) := by
  decide +kernel

/-- Seen from `.` it is found, though the package root is the same directory. -/
theorem resolve_contained_dotted : dottedTarget.isValid = true ∧
    Contained dottedTree ⟨""⟩ dottedTarget ∧ Contained dottedTree ⟨"."⟩ dottedTarget ∧
    ∃ set, resolve dottedTree ⟨"."⟩ dottedTarget = .ok set ∧ set.files = [⟨"a.c"⟩] := by
  have hvalid : dottedTarget.isValid = true := by decide +kernel
  have hset : resolve dottedTree ⟨"."⟩ dottedTarget = .ok {
      target := "t"
      root := ⟨"././src"⟩
      files := [⟨"a.c"⟩]
      publicDir := none
      publicHeaders := []
      unusedExclusions := [] } := by decide +kernel
  exact ⟨hvalid, resolve_contained hvalid, resolve_contained hvalid, _, hset, rfl⟩

end SourceSet

end PackagePlan
