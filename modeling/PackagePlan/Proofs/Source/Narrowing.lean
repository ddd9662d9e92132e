/-
  More patterns, fewer files. When a target declares further exclusion patterns and nothing else
  changes, its source set keeps its root and its public headers directory, loses the files and
  the public headers that one of the new patterns takes out, and loses and gains no other
  (`resolve_narrowed`).
-/
import Mathlib.Data.List.Sort
import PackagePlan.Proofs.Source.Contents

namespace PackagePlan

open PackagePlan.Path

/-! ## Ascending lists -/

namespace Path

/-- Of paths in the shortest spelling each is kept as it is. -/
theorem mem_sorted_iff {paths : List Path} (h : ∀ p ∈ paths, p = ofComponents p.components)
    {p : Path} : p ∈ sorted paths ↔ p ∈ paths := by
  constructor
  · exact mem_of_mem_sorted
  · intro hp
    obtain ⟨q, hq, hcomponents⟩ := memOf_iff.1 (memOf_sorted_of_mem hp)
    rwa [h p hp, hcomponents, ← h q (mem_of_mem_sorted hq)]

theorem Ascending.sublist_of_subset {paths more : List Path} (h : Ascending paths)
    (hmore : Ascending more) (hsubset : more ⊆ paths) : more.Sublist paths := by
  have hnodup : more.Nodup := hmore.imp fun hlt heq => by
    rw [heq, order_eq_iff.2 rfl] at hlt
    cases hlt
  have hantisymm : Std.Antisymm fun p q : Path => p.order q = .lt :=
    ⟨fun p q hlt hgt => by
      have hself := order_trans hlt hgt
      rw [order_eq_iff.2 rfl] at hself
      cases hself⟩
  exact List.sublist_of_subperm_of_pairwise (List.subperm_of_subset hnodup hsubset) hmore h

end Path

/-! ## Patterns -/

/-- Whether one of the patterns takes the path out. -/
def TakenOutBy (owner : String) (patterns : List String) (p : Path) : Prop :=
  ∃ text ∈ patterns, ∃ exclusion,
    Exclusion.parse owner text = .ok exclusion ∧ exclusion.TakesOut p

theorem takenOutBy_congr {owner : String} {patterns : List String} {p q : Path}
    (h : p.components = q.components) :
    TakenOutBy owner patterns p ↔ TakenOutBy owner patterns q := by
  unfold TakenOutBy
  simp only [Exclusion.takesOut_congr h]

/-- The second list of patterns has those of the first, the added ones, and no others. -/
def Adds (added base more : List String) : Prop :=
  ∀ pattern, pattern ∈ more ↔ pattern ∈ base ∨ pattern ∈ added

theorem Target.excludes_iff_of_adds {target : Target} {added patterns : List String}
    (h : Adds added target.exclude patterns) {p : Path} :
    ({ target with exclude := patterns } : Target).Excludes p ↔
      target.Excludes p ∨ TakenOutBy target.name added p := by
  unfold Target.Excludes TakenOutBy
  simp only [h _, or_and_right, exists_or]

/-! ## Source sets -/

namespace SourceSet

/-- What is left of a source set when patterns are added. -/
structure NarrowedBy (owner : String) (added : List String) (base more : SourceSet) : Prop where
  target : more.target = base.target
  root : more.root = base.root
  publicDir : more.publicDir = base.publicDir
  /-- The files that are left are those that no added pattern takes out. -/
  files : ∀ p, p ∈ more.files ↔ p ∈ base.files ∧ ¬TakenOutBy owner added p
  files_sublist : more.files.Sublist base.files
  /-- So are the public headers, where a pattern looks at the path from the target directory. -/
  publicHeaders : ∀ header, header ∈ more.publicHeaders ↔ header ∈ base.publicHeaders ∧
    ∃ dir p, base.publicDir = some dir ∧ p.IsPlain ∧
      (base.root.join p).same (dir.join header) = true ∧ ¬TakenOutBy owner added p
  publicHeaders_sublist : more.publicHeaders.Sublist base.publicHeaders

variable {tree : Tree} {packageRoot : Path} {target : Target}

theorem spelled_of_mem_candidates (hvalid : target.isValid = true) {files : List Path}
    (h : candidates tree packageRoot (packageRoot.join target.path) target = .ok files) {p : Path}
    (hp : p ∈ files) : p.IsPlain ∧ p = ofComponents p.components := by
  obtain ⟨sourceRoot, hroot, found, hfound, hseen⟩ := (mem_candidates h).1 hp
  obtain ⟨more, hmore, rfl⟩ := target.exists_of_mem_sourceRoots hvalid hroot
  obtain ⟨hplain, hspelled, -⟩ := components_of_seen hvalid hmore hfound hseen
  exact ⟨hplain, hspelled⟩

/-- A public header is named below the directory of them. -/
theorem exists_seenAs_of_mem (hvalid : target.isValid = true) {place : Path}
    (hplace : target.publicHeadersDir? = some place) {headers : List Path}
    (hheaders : headerCandidates tree (packageRoot.join target.path) target
      (some (packageRoot.join place)) = .ok headers) {p : Path} (hp : p ∈ headers) :
    ∃ header, ((packageRoot.join target.path).join p).relativeTo? (packageRoot.join place) =
        some header ∧
      SeenAs (packageRoot.join target.path) (packageRoot.join place) header p := by
  obtain ⟨listed, -, hlisted, rfl⟩ := headerCandidates_eq_ok hheaders
  obtain ⟨hlistedMem, hkind⟩ := List.mem_filter.1 hp
  obtain ⟨found, hfound, hseen⟩ := (mem_listing hlisted).1 hlistedMem
  exact exists_seenAs hvalid hplace hfound hseen (components_ne_nil_of_kind (by simpa using hkind))

namespace SeenAs

variable {dir header p q : Path}

theorem same (h : SeenAs (packageRoot.join target.path) dir header p) :
    ((packageRoot.join target.path).join p).same (dir.join header) = true :=
  same_iff.2 ((h.leads header h.header_plain).2 rfl).symm

/-- No other path from the target directory leads there. -/
theorem components_eq (h : SeenAs (packageRoot.join target.path) dir header p) (hq : q.IsPlain)
    (hsame : ((packageRoot.join target.path).join q).same (dir.join header) = true) :
    q.components = p.components := by
  rw [same_iff, (h.leads header h.header_plain).2 rfl, components_join_plain _ hq,
    components_join_plain _ h.plain] at hsame
  exact List.append_cancel_left hsame

end SeenAs

section
variable {added patterns : List String} {exclusions exclusions' : List Exclusion}
  (hadds : Adds added target.exclude patterns)
  (hexclusions : target.exclude.mapM (Exclusion.parse target.name) = .ok exclusions)
  (hexclusions' : patterns.mapM (Exclusion.parse target.name) = .ok exclusions')
include hadds hexclusions hexclusions'

/-- What is kept with the added patterns is what was kept before and they do not take out. -/
theorem mem_kept_of_adds {paths : List Path}
    (hpaths : ∀ q ∈ paths, q.IsPlain ∧ q = ofComponents q.components) (p : Path) :
    p ∈ kept exclusions' paths ↔
      p ∈ kept exclusions paths ∧ ¬TakenOutBy target.name added p := by
  by_cases hp : p ∈ paths
  · obtain ⟨hplain, hspelled⟩ := hpaths p hp
    have hmore : p ∈ kept exclusions' paths ↔
        p ∈ paths ∧ ¬({ target with exclude := patterns } : Target).Excludes p :=
      mem_kept hexclusions' hplain hspelled
    rw [hmore, mem_kept hexclusions hplain hspelled, Target.excludes_iff_of_adds hadds, not_or,
      and_assoc]
  · have hout : ∀ exclusions : List Exclusion, p ∉ kept exclusions paths := fun exclusions hkept =>
      hp (List.mem_filter.1 hkept).1
    simp only [hout, false_and]

/-- The files that are left, of those that the walks of the source roots found. -/
theorem mem_files_of_adds (hvalid : target.isValid = true) {files : List Path}
    (hfiles : candidates tree packageRoot (packageRoot.join target.path) target = .ok files)
    (p : Path) :
    p ∈ sorted (kept exclusions' files) ↔
      p ∈ sorted (kept exclusions files) ∧ ¬TakenOutBy target.name added p := by
  have hspelled : ∀ q ∈ files, q.IsPlain ∧ q = ofComponents q.components := fun q =>
    spelled_of_mem_candidates hvalid hfiles
  have hsorted : ∀ exclusions : List Exclusion,
      p ∈ sorted (kept exclusions files) ↔ p ∈ kept exclusions files := fun exclusions =>
    mem_sorted_iff fun q hq => (hspelled q (List.mem_filter.1 hq).1).2
  rw [hsorted, hsorted, mem_kept_of_adds hadds hexclusions hexclusions' hspelled]

/-- The public headers that are left, of those below the public headers directory. -/
theorem mem_publicHeaders_of_adds (hvalid : target.isValid = true) {place : Path}
    (hplace : target.publicHeadersDir? = some place) {headers : List Path}
    (hheaders : headerCandidates tree (packageRoot.join target.path) target
      (some (packageRoot.join place)) = .ok headers) (header : Path) :
    header ∈ sorted (publicNames (packageRoot.join target.path) (some (packageRoot.join place))
        (kept exclusions' headers)) ↔
      header ∈ sorted (publicNames (packageRoot.join target.path) (some (packageRoot.join place))
        (kept exclusions headers)) ∧
      ∃ p, p.IsPlain ∧
        ((packageRoot.join target.path).join p).same ((packageRoot.join place).join header) = true ∧
        ¬TakenOutBy target.name added p := by
  have hseen : ∀ {p header : Path}, p ∈ headers →
      ((packageRoot.join target.path).join p).relativeTo? (packageRoot.join place) = some header →
      SeenAs (packageRoot.join target.path) (packageRoot.join place) header p := by
    intro p header hp hrelative
    obtain ⟨_, hsome, hseen⟩ := exists_seenAs_of_mem hvalid hplace hheaders hp
    obtain rfl := Option.some.inj (hrelative.symm.trans hsome)
    exact hseen
  have hspelled : ∀ q ∈ headers, q.IsPlain ∧ q = ofComponents q.components := by
    intro q hq
    obtain ⟨_, -, hseen⟩ := exists_seenAs_of_mem hvalid hplace hheaders hq
    exact ⟨hseen.plain, hseen.spelled⟩
  have hsorted : ∀ exclusions : List Exclusion,
      header ∈ sorted (publicNames (packageRoot.join target.path) (some (packageRoot.join place))
        (kept exclusions headers)) ↔
      ∃ p ∈ kept exclusions headers,
        ((packageRoot.join target.path).join p).relativeTo? (packageRoot.join place) =
          some header := by
    intro exclusions
    rw [mem_sorted_iff, publicNames, List.mem_filterMap]
    intro name hname
    obtain ⟨p, hp, hrelative⟩ := List.mem_filterMap.1 hname
    exact (hseen (List.mem_filter.1 hp).1 hrelative).header_spelled
  rw [hsorted, hsorted]
  constructor
  · rintro ⟨p, hp, hrelative⟩
    obtain ⟨hkept, hleft⟩ := (mem_kept_of_adds hadds hexclusions hexclusions' hspelled p).1 hp
    have hpath := hseen (List.mem_filter.1 hp).1 hrelative
    exact ⟨⟨p, hkept, hrelative⟩, p, hpath.plain, hpath.same, hleft⟩
  · rintro ⟨⟨p, hp, hrelative⟩, q, hq, hsame, hleft⟩
    have hpath := hseen (List.mem_filter.1 hp).1 hrelative
    rw [takenOutBy_congr (hpath.components_eq hq hsame)] at hleft
    exact ⟨p, (mem_kept_of_adds hadds hexclusions hexclusions' hspelled p).2 ⟨hp, hleft⟩,
      hrelative⟩

end

/-- Patterns that are added to a target take files and public headers out of its source set and
    change nothing else of it but the list of unused patterns. -/
theorem resolve_narrowed (hvalid : target.isValid = true) {added patterns : List String}
    (hadds : Adds added target.exclude patterns) {set set' : SourceSet}
    (h : resolve tree packageRoot target = .ok set)
    (h' : resolve tree packageRoot { target with exclude := patterns } = .ok set') :
    set.NarrowedBy target.name added set' := by
  obtain ⟨exclusions, files, headers, -, hexclusions, hfiles, hheaders, rfl⟩ := resolve_eq_ok h
  obtain ⟨exclusions', files', headers', -, hexclusions', hfiles', hheaders', rfl⟩ :=
    resolve_eq_ok h'
  -- The walks do not look at the patterns.
  obtain rfl := Except.ok.inj (hfiles.symm.trans hfiles')
  obtain rfl := Except.ok.inj (hheaders.symm.trans hheaders')
  have hfilesLeft := mem_files_of_adds hadds hexclusions hexclusions' hvalid hfiles
  have hheadersLeft : ∀ header, header ∈ sorted (publicNames (packageRoot.join target.path)
        (target.publicHeadersDir?.map packageRoot.join) (kept exclusions' headers)) ↔
      header ∈ sorted (publicNames (packageRoot.join target.path)
        (target.publicHeadersDir?.map packageRoot.join) (kept exclusions headers)) ∧
      ∃ dir p, target.publicHeadersDir?.map packageRoot.join = some dir ∧ p.IsPlain ∧
        ((packageRoot.join target.path).join p).same (dir.join header) = true ∧
        ¬TakenOutBy target.name added p := by
    intro header
    cases hplace : target.publicHeadersDir? with
    | none => simp [publicNames, sorted]
    | some place =>
      rw [hplace] at hheaders
      have hiff :=
        mem_publicHeaders_of_adds hadds hexclusions hexclusions' hvalid hplace hheaders header
      simpa using hiff
  exact
    { target := rfl
      root := rfl
      publicDir := rfl
      files := hfilesLeft
      files_sublist := (sorted_ascending _).sublist_of_subset (sorted_ascending _) fun p hp =>
        ((hfilesLeft p).1 hp).1
      publicHeaders := hheadersLeft
      publicHeaders_sublist := (sorted_ascending _).sublist_of_subset (sorted_ascending _)
        fun header hheader => ((hheadersLeft header).1 hheader).1 }

end SourceSet

end PackagePlan
