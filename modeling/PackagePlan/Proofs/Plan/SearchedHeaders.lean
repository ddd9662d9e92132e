/-
  Whether a lookup finds what a compilation sees. The compiler searches whole directories; a lookup
  knows the files of the source sets and the public headers. A public headers directory is gone
  through for its own sake, so there the two agree. A search directory is not: of its headers a
  lookup knows those that a walk from a source root comes to, and the others it takes for unknown,
  unless their names are taken (`Plan.Covers`). Main statement: `resolve_covers`.
-/
import PackagePlan.Proofs.Plan.OwnHeaders
import PackagePlan.Proofs.Source.Containment

namespace PackagePlan

open PackagePlan.Path

/-! ## What the compiler sees -/

/-- The compiler sees a header in a directory of the target: a file lies there under this name, it
is a header by its name, and the target does not exclude it. -/
structure Target.Shows (target : Target) (tree : Tree) (packageRoot dir header : Path) : Prop where
  plain : header.IsPlain
  kind : FileKind.of header = .header
  holds : ∃ found, tree.Holds dir found ∧ found.same (dir.join header) = true
  kept : ∃ p : Path, p.IsPlain ∧
    ((packageRoot.join target.path).join p).undotted = (dir.join header).undotted ∧
    ¬target.Excludes p

/-- A walk from a source root of the target comes to the file. -/
def Target.WalksTo (target : Target) (tree : Tree) (packageRoot file : Path) : Prop :=
  ∃ sourceRoot ∈ target.sourceRoots, ∃ found,
    tree.Holds (packageRoot.join sourceRoot) found ∧ found.undotted = file.undotted

namespace Path

theorem undotted_join_plain (p : Path) {q : Path} (hq : q.IsPlain) :
    (p.join q).undotted = p.undotted ++ q.components := by
  unfold undotted
  rw [components_join_plain p hq, List.filter_append, filter_of_not_mem fun hmem => hq _ hmem]

end Path

/-- A search directory lies below the target directory by the names that it is declared with. -/
theorem Target.exists_of_mem_searchDirs {target : Target} (hvalid : target.isValid = true)
    {packageRoot dir : Path} (hdir : dir ∈ target.searchDirs packageRoot) :
    ∃ path ∈ target.headerSearchPaths,
      dir.components = (packageRoot.join target.path).undotted ++ path.undotted := by
  obtain ⟨path, hpath, rfl⟩ := List.mem_map.1 hdir
  have hrelative := isAbsolute_of_isContained (target.isContained_of_mem_searchPaths hvalid hpath)
  refine ⟨path, hpath, ?_⟩
  rw [components_normalize]
  unfold undotted
  rw [components_join (SourceSet.root_text_ne_empty hvalid) hrelative, List.filter_append,
    filter_inner, filter_components hrelative]

namespace SourceSet

variable {tree : Tree} {packageRoot : Path} {target : Target} {set : SourceSet}

section
variable (hvalid : target.isValid = true) (h : resolve tree packageRoot target = .ok set)
include hvalid h

/-- What a walk of the target comes to lies behind the target directory, so the path to it from
there is known once it is known up to `.` components. -/
theorem components_of_walk {found p : Path} (hfound : target.Holds tree packageRoot found)
    (hp : p.IsPlain)
    (hsame : ((packageRoot.join target.path).join p).undotted = found.undotted) :
    found.components = ((packageRoot.join target.path).join p).components := by
  obtain ⟨q, hseen⟩ := exists_of_resolve h hfound
  obtain ⟨place, hplace, hholds⟩ := hfound
  obtain ⟨more, hmore, rfl⟩ := exists_of_mem_places hvalid hplace
  obtain ⟨hq, -, hfoundAt⟩ := components_of_seen hvalid hmore hholds hseen
  rw [undotted_congr hfoundAt, undotted_join_plain _ hp, undotted_join_plain _ hq] at hsame
  rw [hfoundAt, components_join_plain _ hp, components_join_plain _ hq,
    List.append_cancel_left hsame]

/-- A header that is seen in the public headers directory is a public header. -/
theorem memOf_publicHeaders_of_shows {dir header : Path}
    (hdir : target.publicHeadersDir?.map packageRoot.join = some dir)
    (hshows : target.Shows tree packageRoot dir header) :
    header.memOf set.publicHeaders = true := by
  have hexact := resolve_exact hvalid h
  obtain ⟨place, hplace, rfl⟩ := Option.map_eq_some_iff.1 hdir
  obtain ⟨found, hfound, hsame⟩ := hshows.holds
  obtain ⟨p, hp, hpSame, hkept⟩ := hshows.kept
  have hat := components_of_walk hvalid h ⟨place, .inr hplace, hfound⟩ hp
    (hpSame.trans (undotted_congr (same_iff.1 hsame)).symm)
  refine (hexact.publicHeaders header).2
    ⟨hshows.plain, _, hexact.publicDir.trans hdir, ⟨found, hfound, hsame⟩, ?_, p, hp, ?_, hkept⟩
  · have hbehind := components_join_plain (packageRoot.join place) hshows.plain
    rw [kind_append hbehind (components_ne_nil_of_kind hshows.kind), hshows.kind]
  · rw [hexact.root, same_iff, ← hat, same_iff.1 hsame]

/-- A header that is seen in a search directory and that a walk from a source root comes to is a
header of the source set, known by its name in the search directory. -/
theorem hasOwn_of_walksTo {dir header : Path} (hdir : dir ∈ target.searchDirs packageRoot)
    (hshows : target.Shows tree packageRoot dir header)
    (hwalk : target.WalksTo tree packageRoot (dir.join header)) :
    set.HasOwn target.headerSearchPaths header := by
  have hexact := resolve_exact hvalid h
  obtain ⟨sourceRoot, hroot, found, hfound, hsame⟩ := hwalk
  obtain ⟨p, hp, hpSame, hkept⟩ := hshows.kept
  obtain ⟨path, hpath, hbelow⟩ := target.exists_of_mem_searchDirs hvalid hdir
  have hat := components_of_walk hvalid h ⟨sourceRoot, .inl hroot, hfound⟩ hp
    (hpSame.trans hsame.symm)
  have hmem : p.memOf set.files = true := (hexact.files p).2
    ⟨hp, ⟨sourceRoot, hroot, found, hfound, by rw [hexact.root, same_iff, hat]⟩, hkept⟩
  obtain ⟨file, hfile, hfileSame⟩ := memOf_iff.1 hmem
  have hname : file.components = path.undotted ++ header.components := by
    rw [undotted_join_plain _ hp, undotted_join_plain _ hshows.plain,
      undotted_of_not_mem (target.current_not_mem_of_searchDirs hdir), hbelow, List.append_assoc]
      at hpSame
    rw [← hfileSame, List.append_cancel_left hpSame]
  have hkind : FileKind.of file = .header := by
    rw [kind_append hname (components_ne_nil_of_kind hshows.kind), hshows.kind]
  exact .inr ⟨file, mem_headers.2 ⟨hfile, hkind⟩, .searched path hpath hname⟩

/-- A walk from a source root comes to every header of the source set. -/
theorem walksTo_of_mem_headers {file : Path} (hfile : file ∈ set.headers) :
    target.WalksTo tree packageRoot (set.root.join file) := by
  obtain ⟨-, ⟨sourceRoot, hroot, found, hfound, hsame⟩, -⟩ :=
    ((resolve_exact hvalid h).files file).1 (memOf_of_mem (mem_headers.1 hfile).1)
  exact ⟨sourceRoot, hroot, found, hfound, undotted_congr (same_iff.1 hsame)⟩

end

end SourceSet

/-! ## What a lookup finds of it -/

/-- How far the lookups of a planned target cover what its compilation sees, where `targets` are the
targets that were planned and `target` is the one of its name. -/
structure Plan.Covers (plan : Plan) (tree : Tree) (root : Path) (targets : List Target)
    (target : Target) (planned : PlannedTarget) : Prop where
  /-- The compiler searches the search directories of the target, its public headers directory and
  those of the targets that it needs. -/
  dirs : ∀ dir ∈ planned.includeDirs, dir ∈ target.searchDirs root ∨
    ∃ owner ∈ targets, (owner = target ∨ owner.name ∈ planned.closure) ∧
      owner.publicHeadersDir?.map root.join = some dir
  /-- Every header that it sees in a public headers directory is found. -/
  offered : ∀ owner ∈ targets, owner = target ∨ owner.name ∈ planned.closure →
    ∀ dir header, owner.publicHeadersDir?.map root.join = some dir →
      owner.Shows tree root dir header →
        ∃ inclusion, plan.resolveInclude planned.name header = .ok inclusion
  /-- A header that it sees in a search directory is the target's own if it also lies below a source
  root. -/
  reached : ∀ dir ∈ target.searchDirs root, ∀ header, target.Shows tree root dir header →
    target.WalksTo tree root (dir.join header) →
      plan.resolveInclude planned.name header = .ok .own
  /-- Other headers of a search directory are not known. A lookup succeeds where the name is taken:
  a public header has it, or another header of the target, or a header offered to it. -/
  missed : ∀ dir ∈ target.searchDirs root, ∀ header, target.Shows tree root dir header →
    ¬target.WalksTo tree root (dir.join header) →
      ((∃ inclusion, plan.resolveInclude planned.name header = .ok inclusion) ↔
        header.memOf planned.sources.publicHeaders = true ∨
        (∃ file ∈ planned.sources.headers,
          planned.sources.Names target.headerSearchPaths file header ∧
          (planned.sources.root.join file).undotted ≠ (dir.join header).undotted) ∨
        ∃ needed ∈ plan.targets, needed.name ∈ planned.closure ∧
          header.memOf needed.sources.publicHeaders = true)

namespace Plan.Made

variable {graph : Graph} {tree : Tree} {root : Path} {plan : Plan}

theorem offeredBy_iff (h : plan.Made graph tree root) {needed : PlannedTarget}
    (hneeded : needed ∈ plan.targets) {header : Path} :
    plan.headers.OfferedBy header needed.name ↔
      header.memOf needed.sources.publicHeaders = true := by
  obtain ⟨target, -, -, -, -, hsurface⟩ := h.planned needed hneeded
  have hoffers : (Registration.mk target needed.sources needed.closure).surface.offers header =
      true ↔ header.memOf needed.sources.publicHeaders = true :=
    Registration.offers_surface.trans memOf_iff.symm
  constructor
  · intro hoffered
    obtain ⟨surface, hsome, hoffered⟩ := hoffered
    obtain rfl := Option.some.inj (hsurface.symm.trans hsome)
    exact hoffers.1 hoffered
  · exact fun hheader => ⟨_, hsurface, hoffers.2 hheader⟩

/-- A lookup succeeds where the header is the target's own or the closure offers it. -/
theorem exists_resolveInclude_iff (h : plan.Made graph tree root) {planned : PlannedTarget}
    (hmem : planned ∈ plan.targets) {searchPaths : List Path}
    (hfinds : plan.FindsOwn searchPaths planned) {header : Path} (hplain : header.IsPlain) :
    (∃ inclusion, plan.resolveInclude planned.name header = .ok inclusion) ↔
      planned.sources.HasOwn searchPaths header ∨
      ∃ needed ∈ plan.targets, needed.name ∈ planned.closure ∧
        header.memOf needed.sources.publicHeaders = true := by
  obtain ⟨target, -, -, -, -, hsurface⟩ := h.planned planned hmem
  have hsame := components_normalize_of_isPlain hplain
  have hown : (HeaderSurface.of target planned.sources planned.closure).knows header.normalize =
      true ↔ planned.sources.HasOwn searchPaths header := by
    rw [← HeaderIndex.resolve_eq_own_iff hsurface]
    refine (hfinds.own_iff header).trans ⟨fun hhas => hhas.congr hsame.symm, fun hhas => ?_⟩
    exact hhas.congr hsame
  unfold Plan.resolveInclude
  rw [HeaderIndex.exists_resolve_iff hsurface, hown]
  refine or_congr_right ⟨?_, ?_⟩
  · intro hoffering
    obtain ⟨owner, howner, hoffered⟩ := hoffering
    obtain ⟨needed, hneeded, rfl, hheader, -⟩ := h.exists_of_offeredBy hoffered
    exact ⟨needed, hneeded, howner, (memOf_congr hsame _).symm.trans hheader⟩
  · intro hoffering
    obtain ⟨needed, hneeded, hin, hheader⟩ := hoffering
    exact ⟨needed.name, hin, (h.offeredBy_iff hneeded).2 ((memOf_congr hsame _).trans hheader)⟩

/-- Where the names of a search directory are looked up that no walk from a source root comes to. -/
theorem missed_iff (h : plan.Made graph tree root) {planned : PlannedTarget}
    (hmem : planned ∈ plan.targets) {target : Target} (htarget : target ∈ graph.targets)
    (hresolved : SourceSet.resolve tree root target = .ok planned.sources)
    (hfinds : plan.FindsOwn target.headerSearchPaths planned) {file header : Path}
    (hplain : header.IsPlain) (hmissed : ¬target.WalksTo tree root file) :
    (∃ inclusion, plan.resolveInclude planned.name header = .ok inclusion) ↔
      header.memOf planned.sources.publicHeaders = true ∨
      (∃ other ∈ planned.sources.headers,
        planned.sources.Names target.headerSearchPaths other header ∧
        (planned.sources.root.join other).undotted ≠ file.undotted) ∨
      ∃ needed ∈ plan.targets, needed.name ∈ planned.closure ∧
        header.memOf needed.sources.publicHeaders = true := by
  have hother : ∀ other ∈ planned.sources.headers,
      (planned.sources.root.join other).undotted ≠ file.undotted := by
    intro other hin hsame
    obtain ⟨sourceRoot, hroot, found, hfound, hfoundSame⟩ :=
      SourceSet.walksTo_of_mem_headers (graph.valid target htarget) hresolved hin
    exact hmissed ⟨sourceRoot, hroot, found, hfound, hfoundSame.trans hsame⟩
  rw [h.exists_resolveInclude_iff hmem hfinds hplain]
  unfold SourceSet.HasOwn
  rw [or_assoc]
  refine or_congr_right (or_congr_left (exists_congr fun other => and_congr_right fun hin => ?_))
  exact (and_iff_left (hother other hin)).symm

theorem exists_covers (h : plan.Made graph tree root)
    (horder : plan.targets.map (·.name) = plan.buildOrder) {planned : PlannedTarget}
    (hmem : planned ∈ plan.targets)
    (hfinal : plan.headers.includeDirs planned.name = .ok planned.includeDirs)
    (hordered : planned.closure.Sublist plan.buildOrder) :
    ∃ target ∈ graph.targets, target.name = planned.name ∧
      plan.Covers tree root graph.targets target planned := by
  obtain ⟨target, htarget, hname, hresolved, hfinds⟩ := h.exists_findsOwn hmem
  obtain ⟨searching, hsearching, hsame, hsearches⟩ := h.searches_of horder hmem hfinal hordered
  obtain rfl := Target.eq_of_name_eq graph.distinct hsearching htarget (hsame.trans hname.symm)
  have hvalid := graph.valid searching htarget
  refine ⟨searching, htarget, hname,
    { dirs := fun dir hdir => ?_
      offered := fun owner howner hneeds dir header hdir hshows => ?_
      reached := fun dir hdir header hshows hwalk => ?_
      missed := fun dir _ header hshows hmissed =>
        h.missed_iff hmem htarget hresolved hfinds hshows.plain hmissed }⟩
  · obtain hsearch | hpublic | ⟨needed, hneeded, hin, hpublic⟩ := hsearches.only dir hdir
    · exact .inl hsearch
    · exact .inr ⟨searching, htarget, .inl rfl, hsearches.publicDir.symm.trans hpublic⟩
    · obtain ⟨owner, howner, hownerName, hset, -, -⟩ := h.planned needed hneeded
      have hdirs := (SourceSet.resolve_exact (graph.valid owner howner) hset).publicDir
      exact .inr ⟨owner, howner, .inr (hownerName ▸ hin), hdirs.symm.trans hpublic⟩
  · obtain ⟨set, hset⟩ := h.exists_resolve howner
    obtain ⟨needed, hneeded, hneededName, rfl, -⟩ := h.exists_planned howner hset
    have hheader :=
      SourceSet.memOf_publicHeaders_of_shows (graph.valid owner howner) hset hdir hshows
    rw [h.exists_resolveInclude_iff hmem hfinds hshows.plain]
    rcases hneeds with rfl | hin
    · rw [← Except.ok.inj (hresolved.symm.trans hset)] at hheader
      exact .inl (.inl hheader)
    · exact .inr ⟨needed, hneeded, hneededName ▸ hin, hheader⟩
  · have hhas := SourceSet.hasOwn_of_walksTo hvalid hresolved hdir hshows hwalk
    exact (hfinds.own_iff header).2 (hhas.congr (components_normalize_of_isPlain hshows.plain))

end Plan.Made

namespace Vault

theorem not_excludes (p : Path) : ¬target.Excludes p := by
  intro hexcluded
  obtain ⟨_, hmem, -⟩ := hexcluded
  cases hmem

theorem shows_compiled : target.Shows tree ⟨"."⟩ ⟨"src/lib"⟩ ⟨"a.h"⟩ where
  plain := by decide +kernel
  kind := by decide +kernel
  holds := ⟨⟨"src/lib/a.h"⟩, Tree.holds_of_mem_filesUnder (by decide +kernel), by decide +kernel⟩
  kept := ⟨⟨"lib/a.h"⟩, by decide +kernel, by decide +kernel, not_excludes _⟩

theorem walksTo_compiled : target.WalksTo tree ⟨"."⟩ ⟨"src/lib/a.h"⟩ :=
  ⟨⟨"src/lib"⟩, by decide +kernel, ⟨"./src/lib/a.h"⟩,
    Tree.holds_of_mem_filesUnder (by decide +kernel), by decide +kernel⟩

theorem shows_detail : target.Shows tree ⟨"."⟩ ⟨"src/private"⟩ ⟨"detail.h"⟩ where
  plain := by decide +kernel
  kind := by decide +kernel
  holds := ⟨⟨"src/private/detail.h"⟩, Tree.holds_of_mem_filesUnder (by decide +kernel),
    by decide +kernel⟩
  kept := ⟨⟨"private/detail.h"⟩, by decide +kernel, by decide +kernel, not_excludes _⟩

theorem not_knownTo_detail {plan : Plan} (h : plan.Made graph tree ⟨"."⟩) (owner : String) :
    ¬plan.headers.KnownTo ⟨"detail.h"⟩ owner := by
  intro hknown
  obtain ⟨surface, hregistered, hknows⟩ := hknown
  obtain ⟨other, hother, rfl⟩ := h.registered owner surface hregistered
  obtain ⟨declared, hdeclared, hname, -⟩ := h.planned other hother
  obtain rfl := List.mem_singleton.1 hdeclared
  obtain ⟨-, -, -, -, hsurface⟩ := exists_planned h
  have hown : plan.headers.surface? other.name = some (.of target set []) := hname ▸ hsurface
  obtain rfl := Option.some.inj (hown.symm.trans hregistered)
  revert hknows
  decide +kernel

/-- The compiler searches the private corner, and its header is unknown to a lookup. -/
theorem detail_unknown :
    ∃ plan, (resolver.resolve tree ⟨1, 0, 0⟩ none).1 = .ok plan ∧
      ∃ planned ∈ plan.targets, ⟨"src/private"⟩ ∈ planned.includeDirs ∧
        target.Shows tree ⟨"."⟩ ⟨"src/private"⟩ ⟨"detail.h"⟩ ∧
        plan.resolveInclude planned.name ⟨"detail.h"⟩ =
          .error (.headerNotFound "vault" ⟨"detail.h"⟩) := by
  obtain ⟨plan, hplan, hmade⟩ := exists_made
  obtain ⟨planned, hmem, hname, -, hsurface⟩ := exists_planned hmade
  have hdirs : ⟨"src/private"⟩ ∈ planned.includeDirs := by
    obtain ⟨_, -, -, hsearches⟩ := PackageDescription.exists_searches hplan
    obtain ⟨_, -, -, -, hsearch⟩ := hsearches planned hmem
    rw [hsearch.includeDirs_of_record (hname ▸ hsurface)]
    decide +kernel
  have hnormal : (⟨"detail.h"⟩ : Path).normalize = ⟨"detail.h"⟩ := by decide +kernel
  have hunknown : ∀ owner, ¬plan.headers.KnownTo (⟨"detail.h"⟩ : Path).normalize owner := by
    rw [hnormal]
    exact not_knownTo_detail hmade
  have hmissing : plan.resolveInclude "vault" ⟨"detail.h"⟩ =
      .error (.headerNotFound "vault" (⟨"detail.h"⟩ : Path).normalize) :=
    HeaderIndex.resolve_eq_headerNotFound hsurface hunknown
  refine ⟨plan, hplan, planned, hmem, hdirs, shows_detail, ?_⟩
  rw [hname, hmissing, hnormal]

end Vault

namespace Resolver

/-- Of what a compilation of a plan sees, lookups find the public headers and the headers that lie
below a source root, and the others of a search directory only where their names are taken. -/
theorem resolve_covers (resolver : Resolver) (tree : Tree) (toolsVersion : Version)
    (platform : Option Platform) {plan : Plan}
    (h : (resolver.resolve tree toolsVersion platform).1 = .ok plan) :
    ∃ descriptor, resolver.description.descriptorFor toolsVersion = .ok descriptor ∧
      ∀ planned ∈ plan.targets, ∃ target ∈ descriptor.targets, target.name = planned.name ∧
        plan.Covers tree resolver.packageRoot descriptor.targets target planned := by
  obtain ⟨descriptor, graph, hdescriptor, -, hgraph, hplan⟩ := PackageDescription.resolve_eq_ok.1 h
  obtain ⟨htargets, -⟩ := Descriptor.graph_eq_ok.1 hgraph
  obtain ⟨horder, hsearched⟩ := Descriptor.includeDirs_of_plan hplan
  refine ⟨descriptor, hdescriptor, fun planned hmem => ?_⟩
  obtain ⟨hfinal, hordered⟩ := hsearched planned hmem
  rw [← htargets]
  exact (Descriptor.plan_made hplan).exists_covers horder hmem hfinal hordered

/-- A header that the library compiles is seen in a search directory and found. -/
theorem resolve_covers_vault :
    ∃ plan, (Vault.resolver.resolve Vault.tree ⟨1, 0, 0⟩ none).1 = .ok plan ∧
      Vault.target.Shows Vault.tree ⟨"."⟩ ⟨"src/lib"⟩ ⟨"a.h"⟩ ∧
      plan.resolveInclude "vault" ⟨"a.h"⟩ = .ok .own := by
  obtain ⟨plan, hplan, hmade⟩ := Vault.exists_made
  obtain ⟨planned, hmem, hname, -⟩ := Vault.exists_planned hmade
  obtain ⟨descriptor, hdescriptor, hcovers⟩ :=
    resolve_covers Vault.resolver Vault.tree ⟨1, 0, 0⟩ none hplan
  have hsame : Vault.resolver.description.descriptorFor ⟨1, 0, 0⟩ = .ok Vault.descriptor := rfl
  obtain rfl := Except.ok.inj (hsame.symm.trans hdescriptor)
  obtain ⟨target, htarget, -, hcover⟩ := hcovers planned hmem
  obtain rfl := List.mem_singleton.1 htarget
  have hdir : (⟨"src/lib"⟩ : Path) ∈ Vault.target.searchDirs ⟨"."⟩ := by decide +kernel
  have hfound := hcover.reached _ hdir _ Vault.shows_compiled Vault.walksTo_compiled
  rw [hname] at hfound
  exact ⟨plan, hplan, Vault.shows_compiled, hfound⟩

end Resolver

end PackagePlan
