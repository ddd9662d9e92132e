/-
  The stages of resolving a source set, taken apart once: what a set that was resolved is made of
  (`resolve_eq_ok`), and where one that fails has failed (`resolve_eq_error`) and with which errors
  (`resolve_error`). Later proofs follow the stages by these and do not open the resolution again.
-/
import PackagePlan.Proofs.Outcome
import PackagePlan.Source.Set

namespace PackagePlan.SourceSet

variable {tree : Tree} {packageRoot : Path} {target : Target}

/-- A set that was resolved: the target directory is there, the patterns are well formed, and the
    files and headers are those that no pattern covers. -/
theorem resolve_eq_ok {set : SourceSet} (h : resolve tree packageRoot target = .ok set) :
    ∃ exclusions files headers,
      tree.isDirectory (packageRoot.join target.path) = true ∧
      target.exclude.mapM (Exclusion.parse target.name) = .ok exclusions ∧
      candidates tree packageRoot (packageRoot.join target.path) target = .ok files ∧
      headerCandidates tree (packageRoot.join target.path) target
        (target.publicHeadersDir?.map packageRoot.join) = .ok headers ∧
      set = {
        target := target.name
        root := packageRoot.join target.path
        files := Path.sorted (kept exclusions files)
        publicDir := target.publicHeadersDir?.map packageRoot.join
        publicHeaders := Path.sorted (publicNames (packageRoot.join target.path)
          (target.publicHeadersDir?.map packageRoot.join) (kept exclusions headers))
        unusedExclusions := unused exclusions (files ++ headers) } := by
  unfold resolve at h
  dsimp only at h
  split at h
  · cases h
  next hroot =>
  obtain ⟨exclusions, hexclusions, h⟩ := Outcome.bind_eq_ok.1 h
  obtain ⟨files, hfiles, h⟩ := Outcome.bind_eq_ok.1 h
  obtain ⟨headers, hheaders, h⟩ := Outcome.bind_eq_ok.1 h
  refine ⟨exclusions, files, headers, ?_, hexclusions, hfiles, hheaders, (Except.ok.inj h).symm⟩
  simpa using hroot

/-- The stages put together again. -/
theorem resolve_of_stages {exclusions : List Exclusion} {files headers : List Path}
    (hroot : tree.isDirectory (packageRoot.join target.path) = true)
    (hexclusions : target.exclude.mapM (Exclusion.parse target.name) = .ok exclusions)
    (hfiles : candidates tree packageRoot (packageRoot.join target.path) target = .ok files)
    (hheaders : headerCandidates tree (packageRoot.join target.path) target
      (target.publicHeadersDir?.map packageRoot.join) = .ok headers) :
    resolve tree packageRoot target = .ok {
      target := target.name
      root := packageRoot.join target.path
      files := Path.sorted (kept exclusions files)
      publicDir := target.publicHeadersDir?.map packageRoot.join
      publicHeaders := Path.sorted (publicNames (packageRoot.join target.path)
        (target.publicHeadersDir?.map packageRoot.join) (kept exclusions headers))
      unusedExclusions := unused exclusions (files ++ headers) } := by
  unfold resolve
  dsimp only
  rw [hroot, hexclusions, hfiles, hheaders]
  rfl

/-- The errors that resolving a source set can end in. -/
inductive Failure : BuildError → Prop where
  | missing (name : String) (path : Path) : Failure (.missingSourceRoot name path)
  | pattern (name text : String) (fault : PatternFault) : Failure (.invalidPattern name text fault)
  | stray (file root : Path) : Failure (.invalidTarget (.strayFile file root))
  | unread (path : Path) (fault : FileFault) : Failure (.unreadable path fault)

theorem parse_error {name text : String} {error : BuildError}
    (h : Exclusion.parse name text = .error error) : Failure error := by
  unfold Exclusion.parse at h
  split at h
  · cases h
  · obtain rfl := Except.error.inj h
    exact .pattern ..

theorem seen_error {root : Path} {report : Except WalkFault Path} {error : BuildError}
    (h : seen root report = .error error) : Failure error := by
  unfold seen at h
  split at h
  · unfold seenFrom at h
    split at h
    · cases h
    · obtain rfl := Except.error.inj h
      exact .stray ..
  · obtain rfl := Except.error.inj h
    exact .unread ..

theorem listing_error {root start : Path} {error : BuildError}
    (h : listing tree root start = .error error) : Failure error := by
  unfold listing at h
  obtain ⟨report, _, hreport⟩ := Outcome.exists_of_mapM_eq_error h
  exact seen_error hreport

theorem filesIn_eq_error {root sourceRoot : Path} {error : BuildError}
    (h : filesIn tree packageRoot root target sourceRoot = .error error) :
    (tree.exists? (packageRoot.join sourceRoot) = false ∧
      error = .missingSourceRoot target.name (packageRoot.join sourceRoot)) ∨
    listing tree root (packageRoot.join sourceRoot) = .error error := by
  unfold filesIn at h
  dsimp only at h
  split at h
  · exact .inr h
  · next hmissing => exact .inl ⟨by simpa using hmissing, (Except.error.inj h).symm⟩

theorem headerCandidates_eq_error {root : Path} {dir : Option Path} {error : BuildError}
    (h : headerCandidates tree root target dir = .error error) :
    ∃ place, dir = some place ∧
      ((tree.isDirectory place = false ∧ error = .missingSourceRoot target.name place) ∨
        listing tree root place = .error error) := by
  unfold headerCandidates at h
  split at h
  · cases h
  · next place =>
    refine ⟨place, rfl, ?_⟩
    split at h
    · exact .inr (Outcome.map_eq_error.1 h)
    · next hmissing => exact .inl ⟨by simpa using hmissing, (Except.error.inj h).symm⟩

/-- Where a resolution that fails has failed: at the target directory, at a pattern, below a source
    root, or below the public headers directory. -/
theorem resolve_eq_error {error : BuildError}
    (h : resolve tree packageRoot target = .error error) :
    (tree.isDirectory (packageRoot.join target.path) = false ∧
      error = .missingSourceRoot target.name (packageRoot.join target.path)) ∨
    (∃ text ∈ target.exclude, Exclusion.parse target.name text = .error error) ∨
    (∃ sourceRoot ∈ target.sourceRoots,
      filesIn tree packageRoot (packageRoot.join target.path) target sourceRoot = .error error) ∨
    headerCandidates tree (packageRoot.join target.path) target
      (target.publicHeadersDir?.map packageRoot.join) = .error error := by
  unfold resolve at h
  dsimp only at h
  split at h
  · next hdirectory =>
    exact .inl ⟨by simpa using hdirectory, (Except.error.inj h).symm⟩
  rcases Outcome.bind_eq_error.1 h with h | ⟨_, _, h⟩
  · exact .inr (.inl (Outcome.exists_of_mapM_eq_error h))
  rcases Outcome.bind_eq_error.1 h with h | ⟨_, _, h⟩
  · exact .inr (.inr (.inl (Outcome.exists_of_mapM_eq_error (Outcome.map_eq_error.1 h))))
  rcases Outcome.bind_eq_error.1 h with h | ⟨_, _, h⟩
  · exact .inr (.inr (.inr h))
  · cases h

theorem resolve_error {error : BuildError} (h : resolve tree packageRoot target = .error error) :
    Failure error := by
  rcases resolve_eq_error h with ⟨-, rfl⟩ | ⟨_, -, h⟩ | ⟨_, -, h⟩ | h
  · exact .missing ..
  · exact parse_error h
  · rcases filesIn_eq_error h with ⟨-, rfl⟩ | h
    · exact .missing ..
    · exact listing_error h
  · obtain ⟨_, -, ⟨-, rfl⟩ | h⟩ := headerCandidates_eq_error h
    · exact .missing ..
    · exact listing_error h

end PackagePlan.SourceSet
