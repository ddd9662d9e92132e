/-
  Targets that spell their paths in other ways. Two spellings of a path have the same components
  but for `.` ones (`Path.Respells`). The places that a target derives from its paths are in the
  shortest spelling, so respelled targets have the same ones, and only the target directory is seen
  as it is written. Main statement: below a package root that is not empty they resolve to the same
  source set, seen from another spelling of one directory (`exists_resolve_respelled`).
-/
import PackagePlan.Proofs.Graph.Roots
import PackagePlan.Proofs.Source.Narrowing
import PackagePlan.Proofs.Tree.Spelling

namespace PackagePlan

open PackagePlan.Path

namespace Path

/-- Another spelling of a path: the same components, but for `.` ones. -/
def Respells (p q : Path) : Prop := q.undotted = p.undotted

theorem Respells.symm {p q : Path} (h : p.Respells q) : q.Respells p := Eq.symm h

theorem normalize_congr {p q : Path} (h : p.Respells q) : q.normalize = p.normalize :=
  congrArg ofComponents h

theorem components_normalize (p : Path) : p.normalize.components = p.undotted := by
  have hsteps : ∀ c ∈ p.inner, c.IsStep := fun _ => isStep_of_mem_inner
  cases habsolute : p.isAbsolute with
  | false =>
    rw [normalize_eq habsolute, components_ofComponents hsteps]
    exact (filter_components habsolute).symm
  | true =>
    have hundotted : p.undotted = .root :: p.inner := by
      unfold undotted
      rw [components_eq, isAbsolute_iff.1 habsolute, List.filter_append, filter_inner]
      rfl
    have hnormal : p.normalize = ofComponents p.undotted := rfl
    rw [hnormal, hundotted, ofComponents_cons, components_along _ hsteps]
    rfl

theorem current_mem_components_iff {p : Path} : .current ∈ p.components ↔ p.lead = .current := by
  have hinner : .current ∉ p.inner := fun hmem => isStep_of_mem_inner hmem
  rw [components_eq, List.mem_append, or_iff_left hinner]
  cases p.lead <;> decide

theorem current_not_mem_undotted (p : Path) : .current ∉ p.undotted := by
  unfold undotted
  rw [List.mem_filter, decide_eq_true_eq]
  exact fun hmem => hmem.2 rfl

theorem filter_of_not_mem {steps : List Component} (h : .current ∉ steps) :
    steps.filter (· ≠ .current) = steps := by
  rw [List.filter_eq_self]
  intro c hc
  rw [decide_eq_true_eq]
  rintro rfl
  exact h hc

theorem undotted_of_not_mem {p : Path} (h : .current ∉ p.components) :
    p.undotted = p.components := filter_of_not_mem h

theorem undotted_congr {p q : Path} (h : p.components = q.components) :
    p.undotted = q.undotted := by
  unfold undotted
  rw [h]

theorem isContained_iff {p : Path} :
    p.isContained = true ↔ ∀ c ∈ p.undotted, c.descends = true := by
  unfold isContained undotted
  rw [List.all_eq_true]
  constructor
  · intro h c hc
    exact h c (List.mem_filter.1 hc).1
  · intro h c hc
    by_cases hcurrent : c = .current
    · rw [hcurrent]
      rfl
    · exact h c (List.mem_filter.2 ⟨hc, by simpa using hcurrent⟩)

theorem isContained_congr {p q : Path} (h : p.Respells q) :
    q.isContained = true ↔ p.isContained = true := by
  rw [isContained_iff, isContained_iff, h]

/-- The base that a path is seen from counts by its components only. -/
theorem relativeTo?_congr {base base' : Path} (h : base'.components = base.components)
    (p : Path) : p.relativeTo? base' = p.relativeTo? base := by
  unfold relativeTo? startsWith
  rw [h]

theorem respells_toList {path path' : Option Path} (h : Option.Rel Respells path path') :
    List.Forall₂ Respells path.toList path'.toList := by
  cases h with
  | none => exact .nil
  | some hsame => exact .cons hsame .nil

end Path

/-! ## Respelled targets -/

/-- The same target, with other spellings of its paths. -/
structure Target.Respells (base other : Target) : Prop where
  record : other = { base with
    path := other.path
    sources := other.sources
    publicHeaders := other.publicHeaders
    headerSearchPaths := other.headerSearchPaths }
  path : base.path.Respells other.path
  sources : List.Forall₂ Path.Respells base.sources other.sources
  publicHeaders : Option.Rel Path.Respells base.publicHeaders other.publicHeaders
  headerSearchPaths : List.Forall₂ Path.Respells base.headerSearchPaths other.headerSearchPaths

namespace Target

variable {base other target : Target}

/-- The source roots of a valid target are its steps in the shortest spelling. -/
theorem sourceRoots_eq (h : target.isValid = true) :
    target.sourceRoots = target.rootSteps.map ofComponents := by
  rw [← components_sourceRoots h, List.map_map]
  refine (List.map_id _).symm.trans (List.map_congr_left fun sourceRoot hroot => ?_)
  obtain ⟨more, hmore, rfl⟩ := exists_of_mem_sourceRoots h hroot
  have hsteps : ∀ c ∈ target.path.inner ++ more, c.IsStep :=
    List.forall_mem_append.2 ⟨fun _ => isStep_of_mem_inner, fun c hc => (hmore c hc).isStep⟩
  rw [Function.comp_apply, components_ofComponents hsteps, id_eq]

/-- So is the public headers directory. -/
theorem publicHeadersDir?_eq (h : target.isValid = true) :
    target.publicHeadersDir? = target.publicHeaders.map fun dir =>
      ofComponents (target.path.undotted ++ dir.undotted) := by
  unfold publicHeadersDir?
  refine Option.map_congr fun dir hdir => ?_
  have hcontained := isContained_of_publicHeaders h (Option.mem_def.1 hdir)
  rw [normalize_join (isAbsolute_path h) (path_text_ne_empty h)
    (isAbsolute_of_isContained hcontained), undotted_eq_inner (isContained_path h),
    undotted_eq_inner hcontained]

namespace Respells

theorem name (h : base.Respells other) : other.name = base.name := by rw [h.record]

theorem dependencies (h : base.Respells other) : other.dependencies = base.dependencies := by
  rw [h.record]

theorem edges (h : base.Respells other) : other.edges = base.edges := by
  unfold Target.edges
  rw [h.name, h.dependencies]

theorem exclude (h : base.Respells other) : other.exclude = base.exclude := by rw [h.record]

theorem symm (h : base.Respells other) : other.Respells base where
  record := by rw [h.record]
  path := h.path.symm
  sources := h.sources.flip.imp fun _ _ hsame => hsame.symm
  publicHeaders := Outcome.optionRel_symm Path.Respells.symm h.publicHeaders
  headerSearchPaths := h.headerSearchPaths.flip.imp fun _ _ hsame => hsame.symm

theorem memberPaths (h : base.Respells other) :
    List.Forall₂ Path.Respells base.memberPaths other.memberPaths :=
  List.rel_append (List.rel_append h.sources h.headerSearchPaths)
    (respells_toList h.publicHeaders)

theorem isValid (h : base.Respells other) (hvalid : base.isValid = true) :
    other.isValid = true := by
  obtain ⟨hname, hnormal, hpath, hmembers, hdependencies⟩ := isValid_iff.1 hvalid
  refine isValid_iff.2 ⟨by rwa [h.name], ?_, (isContained_congr h.path).2 hpath, ?_,
    by rwa [h.dependencies]⟩
  · rwa [normalize_congr h.path]
  · intro p hp
    obtain ⟨q, hq, hsame⟩ := Outcome.exists_of_mem_forall₂ h.symm.memberPaths hp
    exact (isContained_congr hsame.symm).2 (hmembers q hq)

theorem rootSteps (h : base.Respells other) : other.rootSteps = base.rootSteps := by
  have hempty : other.sources.isEmpty = base.sources.isEmpty := by
    rw [Bool.eq_iff_iff, List.isEmpty_iff_length_eq_zero, List.isEmpty_iff_length_eq_zero,
      h.sources.length_eq]
  have hmap : (base.sources.map fun source => base.path.undotted ++ source.undotted) =
      other.sources.map fun source => base.path.undotted ++ source.undotted :=
    Outcome.map_eq_of_forall₂ h.sources fun _ _ hsame => congrArg _ hsame.symm
  unfold Target.rootSteps
  rw [hempty, h.path, hmap]

theorem sourceRoots (h : base.Respells other) (hvalid : base.isValid = true) :
    other.sourceRoots = base.sourceRoots := by
  rw [sourceRoots_eq (h.isValid hvalid), sourceRoots_eq hvalid, h.rootSteps]

theorem publicHeadersDir? (h : base.Respells other) (hvalid : base.isValid = true) :
    other.publicHeadersDir? = base.publicHeadersDir? := by
  rw [publicHeadersDir?_eq (h.isValid hvalid), publicHeadersDir?_eq hvalid, h.path]
  exact Outcome.map_eq_of_optionRel h.symm.publicHeaders fun _ _ hsame => by rw [hsame]

theorem privateSearchPaths (h : base.Respells other) :
    other.privateSearchPaths = base.privateSearchPaths :=
  Outcome.map_eq_of_forall₂ h.symm.headerSearchPaths fun _ _ hsame => normalize_congr hsame.symm

end Respells

end Target

/-! ## Their source sets -/

/-- The target directory fits: as it is written below the package root, its path is not too long to
be looked up. -/
def Target.Fits (packageRoot : Path) (target : Target) : Prop :=
  (packageRoot.join target.path).text.utf8ByteSize ≤ Tree.pathLimit

namespace SourceSet

/-- The same source set, with its root seen under another spelling. -/
structure Respells (base other : SourceSet) : Prop where
  record : other = { base with root := other.root }
  root : other.root.same base.root = true

variable {tree : Tree} {packageRoot root root' : Path} {base other target : Target}

theorem listing_congr (hroot : root'.components = root.components) {start : Path}
    {paths : List Path} (h : listing tree root start = .ok paths) :
    listing tree root' start = .ok paths := by
  unfold listing at h ⊢
  refine Outcome.mapM_eq_ok.2 ((Outcome.mapM_eq_ok.1 h).imp fun report p hseen => ?_)
  obtain ⟨found, hfound, hrelative⟩ := seen_eq_ok.1 hseen
  exact seen_eq_ok.2 ⟨found, hfound, (relativeTo?_congr hroot found).trans hrelative⟩

theorem filesIn_congr (hroot : root'.components = root.components) {sourceRoot : Path}
    {paths : List Path} (h : filesIn tree packageRoot root base sourceRoot = .ok paths) :
    filesIn tree packageRoot root' other sourceRoot = .ok paths := by
  unfold filesIn at h ⊢
  dsimp only at h ⊢
  split at h
  · next hexists =>
    rw [if_pos hexists]
    exact listing_congr hroot h
  · cases h

theorem candidates_congr (hroot : root'.components = root.components)
    (hroots : other.sourceRoots = base.sourceRoots) {files : List Path}
    (h : candidates tree packageRoot root base = .ok files) :
    candidates tree packageRoot root' other = .ok files := by
  unfold candidates at h ⊢
  obtain ⟨lists, hlists, rfl⟩ := Outcome.map_eq_ok.1 h
  refine Outcome.map_eq_ok.2 ⟨lists, Outcome.mapM_eq_ok.2 ?_, rfl⟩
  rw [hroots]
  exact (Outcome.mapM_eq_ok.1 hlists).imp fun _ _ => filesIn_congr hroot

theorem headerCandidates_congr (hroot : root'.components = root.components) {dir : Option Path}
    {headers : List Path} (h : headerCandidates tree root base dir = .ok headers) :
    headerCandidates tree root' other dir = .ok headers := by
  cases dir with
  | none => exact h
  | some dir =>
    obtain ⟨listed, hdirectory, hlisted, rfl⟩ := headerCandidates_eq_ok h
    rw [headerCandidates, if_pos hdirectory, listing_congr hroot hlisted]
    rfl

/-- The name of a public header is the same, seen from every spelling of the target directory. -/
theorem publicNames_congr (hspelled : base.Respells other) (hvalid : base.isValid = true)
    (hroot : (packageRoot.join other.path).components = (packageRoot.join base.path).components)
    {headers : List Path}
    (h : headerCandidates tree (packageRoot.join base.path) base
      (base.publicHeadersDir?.map packageRoot.join) = .ok headers)
    {kept : List Path} (hkept : kept ⊆ headers) :
    publicNames (packageRoot.join other.path) (base.publicHeadersDir?.map packageRoot.join) kept =
      publicNames (packageRoot.join base.path) (base.publicHeadersDir?.map packageRoot.join)
        kept := by
  cases hplace : base.publicHeadersDir? with
  | none => rfl
  | some place =>
    rw [hplace] at h
    have hvalid' := hspelled.isValid hvalid
    have hplace' : other.publicHeadersDir? = some place :=
      (hspelled.publicHeadersDir? hvalid).trans hplace
    refine List.filterMap_congr fun p hp => ?_
    obtain ⟨header, hrelative, hseen⟩ := exists_seenAs_of_mem hvalid hplace h (hkept hp)
    obtain ⟨header', hrelative', hseen'⟩ :=
      exists_seenAs_of_mem hvalid' hplace' (headerCandidates_congr hroot h) (hkept hp)
    have hsame : header'.components = header.components := by
      refine (hseen.leads header' hseen'.header_plain).1 ?_
      rw [(hseen'.leads header' hseen'.header_plain).2 rfl, components_join_plain _ hseen.plain,
        components_join_plain _ hseen.plain, hroot]
    rw [hrelative, hrelative', hseen'.header_spelled, hsame, ← hseen.header_spelled]

/-- A target whose directory is there fits. -/
theorem fits_of_resolve {set : SourceSet} (h : resolve tree packageRoot target = .ok set) :
    target.Fits packageRoot := by
  obtain ⟨_, _, _, hdirectory, -⟩ := resolve_eq_ok h
  exact (Tree.isDirectory_iff.1 hdirectory).1.2.2

theorem root_ne_empty_of_resolve (hvalid : target.isValid = true) {set : SourceSet}
    (h : resolve tree packageRoot target = .ok set) : set.root.text ≠ "" := by
  obtain ⟨_, _, _, -, -, -, -, rfl⟩ := resolve_eq_ok h
  exact root_text_ne_empty hvalid

/-- A respelled target resolves to the same source set, if its directory still fits. -/
theorem exists_resolve_respelled (hspelled : base.Respells other) (hvalid : base.isValid = true)
    (hroot : packageRoot.text ≠ "") (hfits : other.Fits packageRoot) {set : SourceSet}
    (h : resolve tree packageRoot base = .ok set) :
    ∃ set', resolve tree packageRoot other = .ok set' ∧ set.Respells set' := by
  obtain ⟨exclusions, files, headers, hdirectory, hexclusions, hfiles, hheaders, rfl⟩ :=
    resolve_eq_ok h
  have hvalid' := hspelled.isValid hvalid
  have hinner : other.path.inner = base.path.inner := by
    rw [← Target.undotted_eq_inner (base.isContained_path hvalid),
      ← Target.undotted_eq_inner (other.isContained_path hvalid'), hspelled.path]
  have hplaced : ∀ target : Target, ¬target.IsMislaid packageRoot := fun _ h => hroot h.1
  have hcomponents : (packageRoot.join other.path).components =
      (packageRoot.join base.path).components := by
    rw [components_root hvalid' (hplaced other), components_root hvalid (hplaced base), hinner]
  have hdirectory' : tree.isDirectory (packageRoot.join other.path) = true := by
    refine Tree.isDirectory_congr ?_ ?_ (root_text_ne_empty hvalid') hfits hdirectory
    · rw [isAbsolute_join hroot (base.isAbsolute_path hvalid),
        isAbsolute_join hroot (other.isAbsolute_path hvalid')]
    · rw [inner_join hroot (base.isAbsolute_path hvalid),
        inner_join hroot (other.isAbsolute_path hvalid'), hinner]
  have hresolved := resolve_of_stages hdirectory'
    (by rwa [hspelled.exclude, hspelled.name])
    (candidates_congr hcomponents (hspelled.sourceRoots hvalid) hfiles)
    (by rw [hspelled.publicHeadersDir? hvalid]; exact headerCandidates_congr hcomponents hheaders)
  have hkept : kept exclusions headers ⊆ headers := fun _ hp => (List.mem_filter.1 hp).1
  refine ⟨_, hresolved, ?_, same_iff.2 hcomponents⟩
  rw [hspelled.publicHeadersDir? hvalid,
    publicNames_congr hspelled hvalid hcomponents hheaders hkept, hspelled.name]

end SourceSet

end PackagePlan
