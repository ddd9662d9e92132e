/-
  The patterns that a source set lists as unused. A declared pattern is listed exactly when it
  matches nothing that the walks find, neither a path nor a directory above one; and a target that
  declares some of the listed patterns no more resolves to the same set, without them in the list.
  Main statement: `resolve_unused`.
-/
import PackagePlan.Proofs.Source.Contents

namespace PackagePlan

open PackagePlan.Path

/-! ## Patterns by their text -/

namespace Exclusion

/-- Whether a pattern, as declared, is well formed and covers the path. -/
def textCovers (owner pattern : String) (p : Path) : Bool :=
  match parse owner pattern with
  | .ok exclusion => exclusion.covers p
  | .error _ => false

theorem text_of_parse {owner pattern : String} {exclusion : Exclusion}
    (h : parse owner pattern = .ok exclusion) : exclusion.text = pattern := by
  unfold parse at h
  split at h
  · cases h
    rfl
  · cases h

theorem textCovers_of_parse {owner pattern : String} {exclusion : Exclusion}
    (h : parse owner pattern = .ok exclusion) :
    textCovers owner pattern = exclusion.covers := by
  funext p
  unfold textCovers
  rw [h]

/-- A pattern covers a path through one that its ancestors hold: the path or a directory above. -/
theorem textCovers_iff {owner pattern : String} {p : Path} :
    textCovers owner pattern p = true ↔ ∃ exclusion, parse owner pattern = .ok exclusion ∧
      ∃ above ∈ p.ancestors, above.text ≠ "" ∧ exclusion.glob.acceptsText above.text = true := by
  cases hparse : parse owner pattern with
  | error fault => simp [textCovers, hparse]
  | ok exclusion => simp [textCovers_of_parse hparse, covers, isEmpty]

end Exclusion

/-! ## What the patterns are tried on -/

/-- The paths, as seen from the target directory, on which the patterns of a target are tried: the
files under its source roots and the headers under its public headers directory. -/
inductive Target.Finds (tree : Tree) (packageRoot : Path) (target : Target) : Path → Prop where
  | file {sourceRoot found p : Path} (hroot : sourceRoot ∈ target.sourceRoots)
      (hfound : tree.Holds (packageRoot.join sourceRoot) found)
      (hseen : found.relativeTo? (packageRoot.join target.path) = some p) :
      Finds tree packageRoot target p
  | header {dir found p : Path} (hdir : target.publicHeadersDir? = some dir)
      (hfound : tree.Holds (packageRoot.join dir) found)
      (hseen : found.relativeTo? (packageRoot.join target.path) = some p)
      (hkind : FileKind.of p = .header) : Finds tree packageRoot target p

namespace SourceSet

/-- What the unused patterns of a source set say. -/
structure UnusedExact (tree : Tree) (packageRoot : Path) (target : Target)
    (set : SourceSet) : Prop where
  /-- They are declared patterns, in the order of the declaration. -/
  declared : set.unusedExclusions.Sublist target.exclude
  /-- Every declared pattern that is not among them matches something that is found, or a directory
  above it, and no other does. -/
  used : ∀ pattern ∈ target.exclude, pattern ∉ set.unusedExclusions ↔
    ∃ exclusion, Exclusion.parse target.name pattern = .ok exclusion ∧
      ∃ p, target.Finds tree packageRoot p ∧
        ∃ above ∈ p.ancestors, above.text ≠ "" ∧ exclusion.glob.acceptsText above.text = true
  /-- Without some of them the target resolves to the same files and public headers. -/
  removable : ∀ patterns : List String, patterns ⊆ target.exclude →
    (∀ pattern ∈ target.exclude, pattern ∈ patterns ∨ pattern ∈ set.unusedExclusions) →
    resolve tree packageRoot { target with exclude := patterns } =
      .ok { set with unusedExclusions := patterns.filter (· ∈ set.unusedExclusions) }

variable {tree : Tree} {packageRoot root : Path} {target : Target} {owner : String}
  {patterns : List String} {exclusions : List Exclusion}

/-! ## The two uses of the patterns -/

/-- The list of unused patterns, said of the texts that are declared. -/
theorem unused_eq_filter (h : patterns.mapM (Exclusion.parse owner) = .ok exclusions)
    (paths : List Path) :
    unused exclusions paths =
      patterns.filter fun pattern => !paths.any (Exclusion.textCovers owner pattern) := by
  replace h := Outcome.mapM_eq_ok.1 h
  induction h with
  | nil => rfl
  | @cons pattern exclusion _ _ hparse _ ih =>
    have hcovers := Exclusion.textCovers_of_parse hparse
    unfold unused at ih ⊢
    rw [List.filter_cons, List.filter_cons, hcovers, ← ih]
    split
    · rw [List.map_cons, Exclusion.text_of_parse hparse]
    · rfl

/-- The paths that are kept, said of the texts that are declared. -/
theorem kept_eq_filter (h : patterns.mapM (Exclusion.parse owner) = .ok exclusions)
    (paths : List Path) :
    kept exclusions paths =
      paths.filter fun p => !patterns.any (Exclusion.textCovers owner · p) := by
  have hany : ∀ p : Path,
      exclusions.any (·.covers p) = patterns.any (Exclusion.textCovers owner · p) := by
    intro p
    replace h := Outcome.mapM_eq_ok.1 h
    induction h with
    | nil => rfl
    | cons hparse _ ih =>
      rw [List.any_cons, List.any_cons, Exclusion.textCovers_of_parse hparse, ih]
  unfold kept
  simp only [hany]

theorem mem_unused (h : patterns.mapM (Exclusion.parse owner) = .ok exclusions)
    {paths : List Path} {pattern : String} :
    pattern ∈ unused exclusions paths ↔
      pattern ∈ patterns ∧ ∀ p ∈ paths, Exclusion.textCovers owner pattern p = false := by
  rw [unused_eq_filter h, List.mem_filter]
  simp

/-- Patterns that cover none of the paths make no difference to what is kept of them. -/
theorem kept_of_unused {fewer : List String} {exclusions' : List Exclusion}
    {found paths : List Path}
    (hexclusions : patterns.mapM (Exclusion.parse owner) = .ok exclusions)
    (hexclusions' : fewer.mapM (Exclusion.parse owner) = .ok exclusions')
    (hfewer : fewer ⊆ patterns)
    (hunused : ∀ pattern ∈ patterns, pattern ∈ fewer ∨ pattern ∈ unused exclusions found)
    (hpaths : paths ⊆ found) : kept exclusions' paths = kept exclusions paths := by
  rw [kept_eq_filter hexclusions, kept_eq_filter hexclusions']
  refine List.filter_congr fun p hp => congrArg not ?_
  rw [Bool.eq_iff_iff, List.any_eq_true, List.any_eq_true]
  constructor
  · rintro ⟨pattern, hpattern, hcovers⟩
    exact ⟨pattern, hfewer hpattern, hcovers⟩
  · rintro ⟨pattern, hpattern, hcovers⟩
    rcases hunused pattern hpattern with hleft | hidle
    · exact ⟨pattern, hleft, hcovers⟩
    · have hnone := ((mem_unused hexclusions).1 hidle).2 p (hpaths hp)
      rw [hcovers] at hnone
      cases hnone

/-! ## The source set -/

/-- The walks come to just the paths that the target finds. -/
theorem mem_found {files headers : List Path}
    (hfiles : candidates tree packageRoot (packageRoot.join target.path) target = .ok files)
    (hheaders : headerCandidates tree (packageRoot.join target.path) target
      (target.publicHeadersDir?.map packageRoot.join) = .ok headers) {p : Path} :
    p ∈ files ++ headers ↔ target.Finds tree packageRoot p := by
  rw [List.mem_append, mem_candidates hfiles]
  constructor
  · rintro (⟨sourceRoot, hroot, found, hfound, hseen⟩ | hp)
    · exact .file hroot hfound hseen
    · cases hdir : target.publicHeadersDir? with
      | none =>
        rw [hdir] at hheaders
        cases hheaders
        cases hp
      | some dir =>
        rw [hdir] at hheaders
        obtain ⟨listed, -, hlisted, rfl⟩ := headerCandidates_eq_ok hheaders
        obtain ⟨hp, hkind⟩ := List.mem_filter.1 hp
        obtain ⟨found, hfound, hseen⟩ := (mem_listing hlisted).1 hp
        exact .header hdir hfound hseen (by simpa using hkind)
  · rintro (⟨hroot, hfound, hseen⟩ | ⟨hdir, hfound, hseen, hkind⟩)
    · exact .inl ⟨_, hroot, _, hfound, hseen⟩
    · rw [hdir] at hheaders
      obtain ⟨listed, -, hlisted, rfl⟩ := headerCandidates_eq_ok hheaders
      have hlistedMem := (mem_listing hlisted).2 ⟨_, hfound, hseen⟩
      exact .inr (List.mem_filter.2 ⟨hlistedMem, by simpa using hkind⟩)

/-- A source set that was resolved lists as unused just the patterns that match nothing, and they
make no difference to it. -/
theorem resolve_unused {set : SourceSet} (h : resolve tree packageRoot target = .ok set) :
    UnusedExact tree packageRoot target set := by
  obtain ⟨exclusions, files, headers, hroot, hexclusions, hfiles, hheaders, rfl⟩ := resolve_eq_ok h
  refine
    { declared := ?_
      used := fun pattern hpattern => ?_
      removable := fun patterns hfewer hunused => ?_ }
  · dsimp only
    rw [unused_eq_filter hexclusions]
    exact List.filter_sublist
  · have hused : pattern ∉ unused exclusions (files ++ headers) ↔
        ∃ p, target.Finds tree packageRoot p ∧
          Exclusion.textCovers target.name pattern p = true := by
      rw [mem_unused hexclusions]
      simp only [hpattern, true_and, not_forall, Bool.not_eq_false, mem_found hfiles hheaders,
        exists_prop]
    rw [hused]
    simp only [Exclusion.textCovers_iff]
    constructor
    · rintro ⟨p, hp, exclusion, hparse, habove⟩
      exact ⟨exclusion, hparse, p, hp, habove⟩
    · rintro ⟨exclusion, hparse, p, hp, habove⟩
      exact ⟨p, hp, exclusion, hparse, habove⟩
  · obtain ⟨exclusions', hexclusions'⟩ :
        ∃ exclusions', patterns.mapM (Exclusion.parse target.name) = .ok exclusions' :=
      Outcome.exists_mapM_eq_ok fun pattern hpattern =>
        Outcome.exists_of_mem_mapM hexclusions (hfewer hpattern)
    -- The walks do not look at the patterns, so their outcomes are those of the first run.
    have hkept : ∀ paths ⊆ files ++ headers, kept exclusions' paths = kept exclusions paths :=
      fun paths => kept_of_unused hexclusions hexclusions' hfewer hunused
    have hlisted : unused exclusions' (files ++ headers) =
        patterns.filter (· ∈ unused exclusions (files ++ headers)) := by
      rw [unused_eq_filter hexclusions']
      refine List.filter_congr fun pattern hpattern => ?_
      rw [Bool.eq_iff_iff, decide_eq_true_iff, mem_unused hexclusions, and_iff_right
        (hfewer hpattern), Bool.not_eq_true', Bool.eq_false_iff, ne_eq, List.any_eq_true]
      simp
    have hfewer' : resolve tree packageRoot { target with exclude := patterns } = _ :=
      resolve_of_stages hroot hexclusions' hfiles hheaders
    rw [hfewer', hlisted, hkept files (List.subset_append_left _ _),
      hkept headers (List.subset_append_right _ _)]
    rfl

/-- A target with a pattern that has gone stale. -/
def staleTarget : Target := { workshopTarget with exclude := ["gen", "old/*.c"] }

theorem resolve_unused_stale :
    ∃ set, resolve workshop ⟨"/pkg"⟩ staleTarget = .ok set ∧
      set.unusedExclusions = ["old/*.c"] ∧ UnusedExact workshop ⟨"/pkg"⟩ staleTarget set := by
  have hunused : (resolve workshop ⟨"/pkg"⟩ staleTarget).toOption.map unusedExclusions =
      some ["old/*.c"] := by decide +kernel
  cases hset : resolve workshop ⟨"/pkg"⟩ staleTarget with
  | error fault => rw [hset] at hunused; cases hunused
  | ok set =>
    rw [hset] at hunused
    exact ⟨set, rfl, Option.some.inj hunused, resolve_unused hset⟩

end SourceSet

end PackagePlan
