/-
  What a source set holds. `Exact` says it of the tree and the declaration alone: a path is among
  the files exactly when it leads, from the target directory, to a file that is reached from a
  source root and no pattern takes it out; and a path is among the public headers exactly when it
  leads so from the public headers directory to a header. Main statement: `resolve_exact`.
-/
import PackagePlan.Proofs.Exclusion
import PackagePlan.Proofs.Path.Ordering
import PackagePlan.Proofs.Source.Resolution
import PackagePlan.Proofs.Source.Roots
import PackagePlan.Proofs.Tree.Walk

namespace PackagePlan

open PackagePlan.Path

/-- What a source set of a target holds, path by path. Paths are told apart by their components. -/
structure SourceSet.Exact (tree : Tree) (packageRoot : Path) (target : Target)
    (set : SourceSet) : Prop where
  root : set.root = packageRoot.join target.path
  publicDir : set.publicDir = target.publicHeadersDir?.map packageRoot.join
  files : ∀ p, p.memOf set.files = true ↔
    p.IsPlain ∧
    (∃ sourceRoot ∈ target.sourceRoots, ∃ found,
      tree.Holds (packageRoot.join sourceRoot) found ∧ found.same (set.root.join p) = true) ∧
    ¬target.Excludes p
  publicHeaders : ∀ header, header.memOf set.publicHeaders = true ↔
    header.IsPlain ∧
    ∃ dir, set.publicDir = some dir ∧
      (∃ found, tree.Holds dir found ∧ found.same (dir.join header) = true) ∧
      FileKind.of (dir.join header) = .header ∧
      ∃ p, p.IsPlain ∧ (set.root.join p).same (dir.join header) = true ∧ ¬target.Excludes p
  files_ascending : Ascending set.files
  publicHeaders_ascending : Ascending set.publicHeaders
  contains : ∀ p, set.contains p = true ↔ ∃ q ∈ set.files, p.same q = true

/-- The target directory is written with a `.` in front, and no package root stands before it. -/
def Target.IsMislaid (packageRoot : Path) (target : Target) : Prop :=
  packageRoot.text = "" ∧ target.path.lead = .current

namespace SourceSet

variable {tree : Tree} {packageRoot root start : Path} {target : Target}

/-! ## Listings -/

theorem seen_eq_ok {report : Except WalkFault Path} {p : Path} :
    seen root report = .ok p ↔ ∃ found, report = .ok found ∧ found.relativeTo? root = some p := by
  cases report with
  | error fault => simp [seen]
  | ok found =>
    unfold seen seenFrom
    cases hrelative : found.relativeTo? root <;> simp [hrelative]

theorem error_not_mem {paths : List Path} (h : listing tree root start = .ok paths)
    (fault : WalkFault) : .error fault ∉ tree.filesUnder start := by
  intro hfault
  unfold listing at h
  obtain ⟨p, hp⟩ := Outcome.exists_of_mem_mapM h hfault
  cases hp

/-- A listing that succeeds holds the files that are reached, each seen from the target
directory. -/
theorem mem_listing {paths : List Path} (h : listing tree root start = .ok paths) {p : Path} :
    p ∈ paths ↔ ∃ found, tree.Holds start found ∧ found.relativeTo? root = some p := by
  have hread := error_not_mem h
  unfold listing at h
  rw [Outcome.mem_of_mapM_eq_ok h]
  simp only [seen_eq_ok]
  constructor
  · rintro ⟨_, hmem, found, rfl, hp⟩
    exact ⟨found, (Tree.ok_mem_filesUnder_iff hread).1 hmem, hp⟩
  · rintro ⟨found, hholds, hp⟩
    exact ⟨.ok found, (Tree.ok_mem_filesUnder_iff hread).2 hholds, found, rfl, hp⟩

/-- A listing that succeeds shows every file it finds. -/
theorem exists_of_listing {paths : List Path} (h : listing tree root start = .ok paths)
    {found : Path} (hfound : tree.Holds start found) :
    ∃ p, found.relativeTo? root = some p := by
  have hread := error_not_mem h
  unfold listing at h
  obtain ⟨p, hp⟩ := Outcome.exists_of_mem_mapM h ((Tree.ok_mem_filesUnder_iff hread).2 hfound)
  obtain ⟨_, hsame, hrelative⟩ := seen_eq_ok.1 hp
  cases hsame
  exact ⟨p, hrelative⟩

theorem filesIn_eq_ok {sourceRoot : Path} {paths : List Path}
    (h : filesIn tree packageRoot root target sourceRoot = .ok paths) :
    listing tree root (packageRoot.join sourceRoot) = .ok paths := by
  unfold filesIn at h
  dsimp only at h
  split at h
  · exact h
  · cases h

theorem mem_candidates {paths : List Path}
    (h : candidates tree packageRoot root target = .ok paths) {p : Path} :
    p ∈ paths ↔ ∃ sourceRoot ∈ target.sourceRoots, ∃ found,
      tree.Holds (packageRoot.join sourceRoot) found ∧ found.relativeTo? root = some p := by
  unfold candidates at h
  obtain ⟨lists, hlists, rfl⟩ := Outcome.map_eq_ok.1 h
  rw [List.mem_flatten]
  constructor
  · rintro ⟨paths, hmem, hp⟩
    obtain ⟨sourceRoot, hroot, hpaths⟩ := (Outcome.mem_of_mapM_eq_ok hlists).1 hmem
    exact ⟨sourceRoot, hroot, (mem_listing (filesIn_eq_ok hpaths)).1 hp⟩
  · rintro ⟨sourceRoot, hroot, hfound⟩
    obtain ⟨paths, hpaths⟩ := Outcome.exists_of_mem_mapM hlists hroot
    exact ⟨paths, (Outcome.mem_of_mapM_eq_ok hlists).2 ⟨sourceRoot, hroot, hpaths⟩,
      (mem_listing (filesIn_eq_ok hpaths)).2 hfound⟩

theorem exists_of_candidates {paths : List Path}
    (h : candidates tree packageRoot root target = .ok paths) {sourceRoot found : Path}
    (hroot : sourceRoot ∈ target.sourceRoots)
    (hfound : tree.Holds (packageRoot.join sourceRoot) found) :
    ∃ p, found.relativeTo? root = some p := by
  unfold candidates at h
  obtain ⟨lists, hlists, rfl⟩ := Outcome.map_eq_ok.1 h
  obtain ⟨paths, hpaths⟩ := Outcome.exists_of_mem_mapM hlists hroot
  exact exists_of_listing (filesIn_eq_ok hpaths) hfound

theorem headerCandidates_eq_ok {dir : Path} {paths : List Path}
    (h : headerCandidates tree root target (some dir) = .ok paths) :
    ∃ listed, tree.isDirectory dir = true ∧ listing tree root dir = .ok listed ∧
      paths = listed.filter fun path => FileKind.of path == .header := by
  rw [headerCandidates] at h
  split at h
  · next hdirectory =>
    obtain ⟨listed, hlisted, rfl⟩ := Outcome.map_eq_ok.1 h
    exact ⟨listed, hdirectory, hlisted, rfl⟩
  · cases h

/-! ## Where the files lie -/

theorem isStep_of_isName {steps : List Component} (h : ∀ c ∈ steps, c.IsName) :
    ∀ c ∈ steps, c.IsStep := fun c hc => (h c hc).isStep

/-- The names of the target directory and more names below it. -/
theorem isName_append (hvalid : target.isValid = true) {more : List Component}
    (h : ∀ c ∈ more, c.IsName) : ∀ c ∈ target.path.inner ++ more, c.IsName :=
  List.forall_mem_append.2 ⟨fun _ => target.isName_of_mem_inner_path hvalid, h⟩

/-- A file under a place of the target lies below the package root by the names of the place and
more names. -/
theorem exists_of_holds (hvalid : target.isValid = true) {more : List Component}
    (hmore : ∀ c ∈ more, c.IsName) {found : Path}
    (h : tree.Holds (packageRoot.join (ofComponents (target.path.inner ++ more))) found) :
    ∃ steps, (∀ c ∈ steps, c.IsName) ∧
      found = packageRoot.along (target.path.inner ++ (more ++ steps)) := by
  obtain ⟨steps, hsteps, rfl⟩ := h.exists_along
  refine ⟨steps, hsteps, ?_⟩
  have hfull : target.path.inner ++ more ≠ [] :=
    List.append_ne_nil_of_left_ne_nil (target.inner_path_ne_nil hvalid) _
  rw [join_ofComponents _ hfull (isStep_of_isName (isName_append hvalid hmore)), ← along_append,
    List.append_assoc]

/-- The target directory adds its names to the package root, unless the target is mislaid. -/
theorem components_root (hvalid : target.isValid = true) (h : ¬target.IsMislaid packageRoot) :
    (packageRoot.join target.path).components = packageRoot.components ++ target.path.inner := by
  have hrelative := target.isAbsolute_path hvalid
  by_cases hroot : packageRoot.text = ""
  · rw [join_of_empty hroot, components_of_empty hroot, List.nil_append, components_eq]
    cases hlead : target.path.lead with
    | root => rw [isAbsolute_iff.2 hlead] at hrelative; cases hrelative
    | current => exact absurd ⟨hroot, hlead⟩ h
    | none => rfl
  · exact components_join hroot hrelative

/-- A place below the target directory is found to lie there, unless the target is mislaid. -/
theorem root_isPrefix_iff (hvalid : target.isValid = true) {steps : List Component}
    (hsteps : ∀ c ∈ steps, c.IsName) :
    (packageRoot.join target.path).components <+:
        packageRoot.components ++ (target.path.inner ++ steps) ↔
      ¬target.IsMislaid packageRoot := by
  constructor
  · rintro hstarts ⟨hroot, hlead⟩
    rw [join_of_empty hroot, components_of_empty hroot, components_eq, hlead] at hstarts
    -- The `.` in front would have to be one of the names of the place.
    exact (isName_append hvalid hsteps _ (hstarts.subset List.mem_cons_self)).elim
  · intro h
    rw [components_root hvalid h, ← List.append_assoc]
    exact List.prefix_append _ _

/-- Where a file lies below the target directory, the directory adds its names to the package
root, and the file is seen from there in the shortest spelling. -/
theorem relativeTo?_root (hvalid : target.isValid = true) {steps : List Component}
    (hsteps : ∀ c ∈ steps, c.IsName) {p : Path}
    (h : (packageRoot.along (target.path.inner ++ steps)).relativeTo?
      (packageRoot.join target.path) = some p) :
    (packageRoot.join target.path).components = packageRoot.components ++ target.path.inner ∧
      p = ofComponents steps := by
  have hnames := isStep_of_isName (isName_append hvalid hsteps)
  have hstarts := startsWith_of_relativeTo? h
  rw [components_along _ hnames] at hstarts
  have hcomponents := components_root hvalid ((root_isPrefix_iff hvalid hsteps).1 hstarts)
  refine ⟨hcomponents, ?_⟩
  have hfull : target.path.inner ++ steps ≠ [] :=
    List.append_ne_nil_of_left_ne_nil (target.inner_path_ne_nil hvalid) _
  have hlength : target.path.inner.length ≤ (target.path.inner ++ steps).length := by simp
  rw [relativeTo?_along hfull hnames hlength (by simpa using hcomponents),
    List.drop_left] at h
  exact (Option.some.inj h).symm

/-! ## The two lists -/

theorem root_text_ne_empty (hvalid : target.isValid = true) :
    (packageRoot.join target.path).text ≠ "" :=
  join_text_ne_empty_of_right (target.path_text_ne_empty hvalid)

/-- The components of a place of the target. -/
theorem components_place (hvalid : target.isValid = true) {more : List Component}
    (hmore : ∀ c ∈ more, c.IsName) :
    (packageRoot.join (ofComponents (target.path.inner ++ more))).components =
      packageRoot.components ++ (target.path.inner ++ more) := by
  have hfull : target.path.inner ++ more ≠ [] :=
    List.append_ne_nil_of_left_ne_nil (target.inner_path_ne_nil hvalid) _
  have hnames := isStep_of_isName (isName_append hvalid hmore)
  rw [join_ofComponents _ hfull hnames, components_along _ hnames]

/-- What is known of a file that was found under a place of the target and seen from the target
directory. -/
theorem exists_of_seen (hvalid : target.isValid = true) {more : List Component}
    (hmore : ∀ c ∈ more, c.IsName) {found p : Path}
    (h : tree.Holds (packageRoot.join (ofComponents (target.path.inner ++ more))) found)
    (hp : found.relativeTo? (packageRoot.join target.path) = some p) :
    ∃ steps, (∀ c ∈ more ++ steps, c.IsName) ∧ p = ofComponents (more ++ steps) ∧
      (packageRoot.join target.path).components = packageRoot.components ++ target.path.inner ∧
      found = packageRoot.along (target.path.inner ++ (more ++ steps)) := by
  obtain ⟨steps, hsteps, rfl⟩ := exists_of_holds hvalid hmore h
  have hnames : ∀ c ∈ more ++ steps, c.IsName := List.forall_mem_append.2 ⟨hmore, hsteps⟩
  obtain ⟨hroot, rfl⟩ := relativeTo?_root hvalid hnames hp
  exact ⟨steps, hnames, rfl, hroot, rfl⟩

theorem isPlain_ofComponents {steps : List Component} (h : ∀ c ∈ steps, c.IsName) :
    (ofComponents steps).IsPlain := by
  unfold IsPlain
  rwa [components_ofComponents (isStep_of_isName h)]

/-- Such a file is seen as the path that leads to it from the target directory. -/
theorem components_of_seen (hvalid : target.isValid = true) {more : List Component}
    (hmore : ∀ c ∈ more, c.IsName) {found p : Path}
    (h : tree.Holds (packageRoot.join (ofComponents (target.path.inner ++ more))) found)
    (hp : found.relativeTo? (packageRoot.join target.path) = some p) :
    p.IsPlain ∧ p = ofComponents p.components ∧
      found.components = ((packageRoot.join target.path).join p).components := by
  obtain ⟨steps, hnames, rfl, hroot, rfl⟩ := exists_of_seen hvalid hmore h hp
  have hplain := isPlain_ofComponents hnames
  have hcomponents := components_ofComponents (isStep_of_isName hnames)
  refine ⟨hplain, by rw [hcomponents], ?_⟩
  rw [components_join_plain _ hplain, hroot, hcomponents,
    components_along _ (isStep_of_isName (isName_append hvalid hnames)), List.append_assoc]

/-! ## The patterns -/

theorem excludes_iff {exclusions : List Exclusion}
    (h : target.exclude.mapM (Exclusion.parse target.name) = .ok exclusions) {p : Path} :
    target.Excludes p ↔ ∃ exclusion ∈ exclusions, exclusion.TakesOut p := by
  unfold Target.Excludes
  simp only [Outcome.mem_of_mapM_eq_ok h]
  constructor
  · rintro ⟨text, htext, exclusion, hparse, htakes⟩
    exact ⟨exclusion, ⟨text, htext, hparse⟩, htakes⟩
  · rintro ⟨exclusion, ⟨text, htext, hparse⟩, htakes⟩
    exact ⟨text, htext, exclusion, hparse, htakes⟩

/-- What is kept of paths in the shortest spelling is what no pattern takes out. -/
theorem mem_kept {exclusions : List Exclusion}
    (h : target.exclude.mapM (Exclusion.parse target.name) = .ok exclusions) {paths : List Path}
    {p : Path} (hplain : p.IsPlain) (hspelled : p = ofComponents p.components) :
    p ∈ kept exclusions paths ↔ p ∈ paths ∧ ¬target.Excludes p := by
  unfold kept
  rw [List.mem_filter, excludes_iff h, Bool.not_eq_true', Bool.eq_false_iff, ne_eq,
    List.any_eq_true]
  have hcovers : ∀ exclusion : Exclusion, exclusion.covers p = true ↔ exclusion.TakesOut p := by
    intro exclusion
    rw [hspelled]
    exact Exclusion.covers_ofComponents hplain.isStep
  simp only [hcovers]

/-! ## The two lists -/

theorem memOf_files_iff (hvalid : target.isValid = true) {exclusions : List Exclusion}
    {files : List Path}
    (hexclusions : target.exclude.mapM (Exclusion.parse target.name) = .ok exclusions)
    (hfiles : candidates tree packageRoot (packageRoot.join target.path) target = .ok files)
    (p : Path) :
    p.memOf (sorted (kept exclusions files)) = true ↔
      p.IsPlain ∧
      (∃ sourceRoot ∈ target.sourceRoots, ∃ found,
        tree.Holds (packageRoot.join sourceRoot) found ∧
          found.same ((packageRoot.join target.path).join p) = true) ∧
      ¬target.Excludes p := by
  rw [memOf_sorted, memOf_iff]
  constructor
  · rintro ⟨q, hq, hcomponents⟩
    have hmem : q ∈ files := (List.mem_filter.1 hq).1
    obtain ⟨sourceRoot, hroot, found, hfound, hseen⟩ := (mem_candidates hfiles).1 hmem
    obtain ⟨more, hmore, rfl⟩ := target.exists_of_mem_sourceRoots hvalid hroot
    obtain ⟨hplain, hspelled, hsame⟩ := components_of_seen hvalid hmore hfound hseen
    have hplain' : p.IsPlain := by unfold IsPlain; rwa [hcomponents]
    refine ⟨hplain', ⟨_, hroot, found, hfound, ?_⟩, ?_⟩
    · rw [same_iff, hsame, components_join_plain _ hplain, components_join_plain _ hplain',
        hcomponents]
    · rw [Target.excludes_congr hcomponents]
      exact ((mem_kept hexclusions hplain hspelled).1 hq).2
  · rintro ⟨hplain, ⟨sourceRoot, hroot, found, hfound, hsame⟩, hkept⟩
    obtain ⟨q, hseen⟩ := exists_of_candidates hfiles hroot hfound
    have hmem : q ∈ files := (mem_candidates hfiles).2 ⟨sourceRoot, hroot, found, hfound, hseen⟩
    obtain ⟨more, hmore, rfl⟩ := target.exists_of_mem_sourceRoots hvalid hroot
    obtain ⟨hplain', hspelled, hseenAs⟩ := components_of_seen hvalid hmore hfound hseen
    have hcomponents : p.components = q.components := by
      rw [same_iff, hseenAs, components_join_plain _ hplain, components_join_plain _ hplain']
        at hsame
      exact (List.append_cancel_left hsame).symm
    refine ⟨q, (mem_kept hexclusions hplain' hspelled).2 ⟨hmem, ?_⟩, hcomponents⟩
    rwa [← Target.excludes_congr hcomponents]

/-- The last component decides the kind of a file. -/
theorem kind_append {p q : Path} {base : List Component} (h : p.components = base ++ q.components)
    (hfull : q.components ≠ []) : FileKind.of p = FileKind.of q := by
  unfold FileKind.of extension? fileName?
  rw [h, List.getLast?_append_of_ne_nil _ hfull]

theorem components_ne_nil_of_kind {p : Path} (h : FileKind.of p = .header) :
    p.components ≠ [] := by
  intro hnil
  rw [FileKind.of, extension?, fileName?, hnil] at h
  cases h

/-- A header below the public headers directory that is seen from the target directory is seen
from the former by the names behind it. -/
theorem relativeTo?_dir (hvalid : target.isValid = true) {more steps : List Component}
    (hnames : ∀ c ∈ more ++ steps, c.IsName) (hfull : more ++ steps ≠ [])
    (hroot : (packageRoot.join target.path).components =
      packageRoot.components ++ target.path.inner) :
    ((packageRoot.join target.path).join (ofComponents (more ++ steps))).relativeTo?
      (packageRoot.join (ofComponents (target.path.inner ++ more))) =
        some (ofComponents steps) := by
  have hmore : ∀ c ∈ more, c.IsName := fun c hc => hnames c (List.mem_append_left _ hc)
  have hdir : (packageRoot.join (ofComponents (target.path.inner ++ more))).components =
      (packageRoot.join target.path).components ++ (more ++ steps).take more.length := by
    rw [components_place hvalid hmore, hroot, List.take_left, List.append_assoc]
  have hlength : more.length ≤ (more ++ steps).length := by simp
  rw [join_ofComponents _ hfull (isStep_of_isName hnames),
    relativeTo?_along hfull (isStep_of_isName hnames) hlength hdir, List.drop_left]

/-- A path below the public headers directory, said from the target directory. -/
theorem components_dir_join (hvalid : target.isValid = true) {more : List Component}
    (hmore : ∀ c ∈ more, c.IsName)
    (hroot : (packageRoot.join target.path).components =
      packageRoot.components ++ target.path.inner) {header : Path} (hheader : header.IsPlain) :
    ((packageRoot.join (ofComponents (target.path.inner ++ more))).join header).components =
      (packageRoot.join target.path).components ++ (more ++ header.components) := by
  rw [components_join_plain _ hheader, components_place hvalid hmore, hroot]
  simp only [List.append_assoc]

/-- A directory is no file, so a file under the public headers directory has a name of its own. -/
theorem steps_ne_nil (hvalid : target.isValid = true) {more steps : List Component} {found : Path}
    (hnames : ∀ c ∈ more ++ steps, c.IsName)
    (hdirectory : tree.isDirectory
      (packageRoot.join (ofComponents (target.path.inner ++ more))) = true)
    (h : tree.Holds (packageRoot.join (ofComponents (target.path.inner ++ more))) found)
    (hfound : found = packageRoot.along (target.path.inner ++ (more ++ steps))) : steps ≠ [] := by
  obtain ⟨below, hbelow, hbelowNames, hfoundBelow⟩ := h.exists_along_of_isDirectory hdirectory
  have hmore : ∀ c ∈ more, c.IsName := fun c hc => hnames c (List.mem_append_left _ hc)
  have hcomponents := congrArg components (hfound.symm.trans hfoundBelow)
  rw [components_along _ (isStep_of_isName (isName_append hvalid hnames)),
    components_along _ (isStep_of_isName hbelowNames), components_place hvalid hmore]
    at hcomponents
  rintro rfl
  have hlength := congrArg List.length hcomponents
  simp only [List.append_nil, List.length_append] at hlength
  exact hbelow (List.length_eq_zero_iff.1 (by omega))

/-- A header as it is seen from the target directory, and its name below the public headers
directory. -/
structure SeenAs (root dir header p : Path) : Prop where
  plain : p.IsPlain
  spelled : p = ofComponents p.components
  header_plain : header.IsPlain
  header_spelled : header = ofComponents header.components
  /-- The name and its other spellings lead to the header, and no other name does. -/
  leads : ∀ name : Path, name.IsPlain → ((dir.join name).components = (root.join p).components ↔
    name.components = header.components)

theorem exists_seenAs (hvalid : target.isValid = true) {place : Path}
    (hplace : target.publicHeadersDir? = some place) {found p : Path}
    (hfound : tree.Holds (packageRoot.join place) found)
    (hseen : found.relativeTo? (packageRoot.join target.path) = some p)
    (hfull : p.components ≠ []) :
    ∃ header, ((packageRoot.join target.path).join p).relativeTo? (packageRoot.join place) =
        some header ∧
      SeenAs (packageRoot.join target.path) (packageRoot.join place) header p := by
  obtain ⟨more, hmore, rfl⟩ := target.exists_of_publicHeadersDir? hvalid hplace
  obtain ⟨steps, hnames, rfl, hroot, -⟩ := exists_of_seen hvalid hmore hfound hseen
  have hcomponents := components_ofComponents (isStep_of_isName hnames)
  have hsteps : ∀ c ∈ steps, c.IsName := fun c hc => hnames c (List.mem_append_right _ hc)
  have hheader := components_ofComponents (isStep_of_isName hsteps)
  have hplain := isPlain_ofComponents hnames
  rw [hcomponents] at hfull
  refine ⟨ofComponents steps, relativeTo?_dir hvalid hnames hfull hroot, ?_⟩
  exact
    { plain := hplain
      spelled := by rw [hcomponents]
      header_plain := isPlain_ofComponents hsteps
      header_spelled := by rw [hheader]
      leads := fun name hname => by
        rw [components_dir_join hvalid hmore hroot hname, components_join_plain _ hplain,
          hcomponents, hheader, List.append_cancel_left_eq, List.append_cancel_left_eq] }

/-- A file under the public headers directory is not seen as the target directory itself. -/
theorem components_ne_nil_of_seen (hvalid : target.isValid = true) {place : Path}
    (hplace : target.publicHeadersDir? = some place)
    (hdirectory : tree.isDirectory (packageRoot.join place) = true) {found p : Path}
    (hfound : tree.Holds (packageRoot.join place) found)
    (hseen : found.relativeTo? (packageRoot.join target.path) = some p) : p.components ≠ [] := by
  obtain ⟨more, hmore, rfl⟩ := target.exists_of_publicHeadersDir? hvalid hplace
  obtain ⟨steps, hnames, rfl, -, hfoundAt⟩ := exists_of_seen hvalid hmore hfound hseen
  rw [components_ofComponents (isStep_of_isName hnames)]
  exact List.append_ne_nil_of_right_ne_nil _
    (steps_ne_nil hvalid hnames hdirectory hfound hfoundAt)

theorem memOf_publicHeaders_iff (hvalid : target.isValid = true) {exclusions : List Exclusion}
    {headers : List Path} {place : Path}
    (hexclusions : target.exclude.mapM (Exclusion.parse target.name) = .ok exclusions)
    (hplace : target.publicHeadersDir? = some place)
    (hheaders : headerCandidates tree (packageRoot.join target.path) target
      (some (packageRoot.join place)) = .ok headers) (header : Path) :
    header.memOf (sorted (publicNames (packageRoot.join target.path)
        (some (packageRoot.join place)) (kept exclusions headers))) = true ↔
      header.IsPlain ∧
      (∃ found, tree.Holds (packageRoot.join place) found ∧
        found.same ((packageRoot.join place).join header) = true) ∧
      FileKind.of ((packageRoot.join place).join header) = .header ∧
      ∃ p, p.IsPlain ∧
        ((packageRoot.join target.path).join p).same ((packageRoot.join place).join header) = true ∧
        ¬target.Excludes p := by
  obtain ⟨listed, hdirectory, hlisted, rfl⟩ := headerCandidates_eq_ok hheaders
  obtain ⟨more, hmore, hat⟩ := target.exists_of_publicHeadersDir? hvalid hplace
  have hbelow : ∀ q : Path, q.IsPlain → ((packageRoot.join target.path).join q).components =
      (packageRoot.join target.path).components ++ q.components := fun q =>
    components_join_plain _
  rw [memOf_sorted, memOf_iff]
  unfold publicNames
  constructor
  · rintro ⟨name, hmem, hcomponents⟩
    obtain ⟨q, hq, hrelative⟩ := List.mem_filterMap.1 hmem
    obtain ⟨hqListed, hqKind⟩ := List.mem_filter.1 (List.mem_filter.1 hq).1
    replace hqKind : FileKind.of q = .header := by simpa using hqKind
    have hqFull := components_ne_nil_of_kind hqKind
    obtain ⟨found, hfound, hseen⟩ := (mem_listing hlisted).1 hqListed
    obtain ⟨_, hsome, hnamed⟩ := exists_seenAs hvalid hplace hfound hseen hqFull
    obtain rfl := Option.some.inj (hsome.symm.trans hrelative)
    have hplain : header.IsPlain := by
      unfold IsPlain
      rw [hcomponents]
      exact hnamed.header_plain
    have hleads := (hnamed.leads header hplain).2 hcomponents
    obtain ⟨-, -, hsame⟩ := components_of_seen hvalid hmore (hat ▸ hfound) hseen
    refine ⟨hplain, ⟨found, hfound, ?_⟩, ?_, q, hnamed.plain, ?_, ?_⟩
    · rw [same_iff, hsame, hleads]
    · rw [kind_append (hleads.trans (hbelow q hnamed.plain)) hqFull, hqKind]
    · rw [same_iff, hleads]
    · exact ((mem_kept hexclusions hnamed.plain hnamed.spelled).1 hq).2
  · rintro ⟨hplain, ⟨found, hfound, hsame⟩, hkind, p, hp, hsameRoot, hkept⟩
    obtain ⟨q, hseen⟩ := exists_of_listing hlisted hfound
    have hqFull := components_ne_nil_of_seen hvalid hplace hdirectory hfound hseen
    obtain ⟨name, hrelative, hnamed⟩ := exists_seenAs hvalid hplace hfound hseen hqFull
    obtain ⟨-, -, hqSame⟩ := components_of_seen hvalid hmore (hat ▸ hfound) hseen
    have hleads : ((packageRoot.join place).join header).components =
        ((packageRoot.join target.path).join q).components := by
      rw [← hqSame, same_iff.1 hsame]
    have hqKind : FileKind.of q = .header := by
      rwa [kind_append (hleads.trans (hbelow q hnamed.plain)) hqFull] at hkind
    have hpComponents : p.components = q.components := by
      rw [same_iff, hleads, hbelow p hp, hbelow q hnamed.plain] at hsameRoot
      exact List.append_cancel_left hsameRoot
    refine ⟨name, List.mem_filterMap.2 ⟨q, ?_, hrelative⟩, (hnamed.leads header hplain).1 hleads⟩
    refine (mem_kept hexclusions hnamed.plain hnamed.spelled).2 ⟨?_, ?_⟩
    · exact List.mem_filter.2
        ⟨(mem_listing hlisted).2 ⟨found, hfound, hseen⟩, by simpa using hqKind⟩
    · rwa [← Target.excludes_congr hpComponents]

/-! ## The source set -/

/-- A source set that was resolved holds what the tree and the declaration say. -/
theorem resolve_exact {set : SourceSet} (hvalid : target.isValid = true)
    (h : resolve tree packageRoot target = .ok set) : Exact tree packageRoot target set := by
  obtain ⟨exclusions, files, headers, -, hexclusions, hfiles, hheaders, rfl⟩ := resolve_eq_ok h
  refine
    { root := rfl
      publicDir := rfl
      files := memOf_files_iff hvalid hexclusions hfiles
      publicHeaders := fun header => ?_
      files_ascending := sorted_ascending _
      publicHeaders_ascending := sorted_ascending _
      contains := fun p => ?_ }
  · cases hplace : target.publicHeadersDir? with
    | none => simp [publicNames, sorted, memOf]
    | some place =>
      rw [hplace] at hheaders
      rw [Option.map_some, memOf_publicHeaders_iff hvalid hexclusions hplace hheaders]
      simp
  · unfold contains
    rw [foundIn_iff (sorted_ascending _), memOf, List.any_eq_true]

/-- A directory with a link, a directory that a pattern names and a directory of headers. -/
def workshop : Tree :=
  { root := .directory [("pkg", .directory [("src", .directory
      [("a.c", .file ""), ("gen", .directory [("b.c", .file "")]),
        ("include", .directory [("a.h", .file "")]), ("z.c", .link "a.c")])])] }

/-- A target in that directory. -/
def workshopTarget : Target :=
  { name := "core", path := ⟨"./src/"⟩, exclude := ["gen"], publicHeaders := some ⟨"include"⟩ }

theorem resolve_exact_workshop :
    ∃ set, resolve workshop ⟨"/pkg"⟩ workshopTarget = .ok set ∧
      set.files = [⟨"a.c"⟩, ⟨"include/a.h"⟩, ⟨"z.c"⟩] ∧
      Exact workshop ⟨"/pkg"⟩ workshopTarget set := by
  have hfiles : (resolve workshop ⟨"/pkg"⟩ workshopTarget).toOption.map files =
      some [⟨"a.c"⟩, ⟨"include/a.h"⟩, ⟨"z.c"⟩] := by decide +kernel
  cases hset : resolve workshop ⟨"/pkg"⟩ workshopTarget with
  | error fault => rw [hset] at hfiles; cases hfiles
  | ok set =>
    rw [hset] at hfiles
    exact ⟨set, rfl, Option.some.inj hfiles, resolve_exact (by decide +kernel) hset⟩

end SourceSet

end PackagePlan
