/-
  Whose file a file is. Every file of a planned target lies below a source root of the target
  (`SourceSet.exists_root_of_file`), and below roots of two targets there is no common place
  (`Graph.not_both_startsWith`), so no file is compiled by two targets (`resolve_files_apart`).

  Public headers are found in another way: the public headers directory is taken whole, whether
  its parts lie below source roots or not. A header that one target offers can therefore be a file
  of another, but only outside the source roots of the one that offers it
  (`resolve_include_outside_roots`), and there it can be a file that the other keeps to itself
  (`resolve_include_reaches_internal`).
-/
import PackagePlan.Plan.State
import PackagePlan.Proofs.Graph.Roots
import PackagePlan.Proofs.Headers.Visibility
import PackagePlan.Proofs.Plan.Making
import PackagePlan.Proofs.Source.Contents

namespace PackagePlan

open PackagePlan.Path

/-! ## Files and source roots -/

/-- A source root goes on from the package root by its own components. -/
theorem Target.components_join_root {target : Target} (hvalid : target.isValid = true)
    {sourceRoot : Path} (hroot : sourceRoot ∈ target.sourceRoots) (packageRoot : Path) :
    (packageRoot.join sourceRoot).components = packageRoot.components ++ sourceRoot.components := by
  obtain ⟨more, hmore, rfl⟩ := target.exists_of_mem_sourceRoots hvalid hroot
  have hnames := SourceSet.isName_append hvalid hmore
  rw [SourceSet.components_place hvalid hmore,
    components_ofComponents (SourceSet.isStep_of_isName hnames)]

/-- A file of a source set lies below a source root of the target. -/
theorem SourceSet.exists_root_of_file {tree : Tree} {packageRoot : Path} {target : Target}
    {set : SourceSet} (hvalid : target.isValid = true)
    (h : resolve tree packageRoot target = .ok set) {file : Path} (hfile : file ∈ set.files) :
    ∃ sourceRoot ∈ target.sourceRoots,
      (set.root.join file).startsWith (packageRoot.join sourceRoot) = true := by
  obtain ⟨exclusions, files, headers, -, hexclusions, hfiles, -, rfl⟩ := resolve_eq_ok h
  have hmem : file.memOf (sorted (kept exclusions files)) = true :=
    memOf_iff.2 ⟨file, hfile, rfl⟩
  obtain ⟨-, ⟨sourceRoot, hroot, found, hholds, hsame⟩, -⟩ :=
    (memOf_files_iff hvalid hexclusions hfiles file).1 hmem
  refine ⟨sourceRoot, hroot, ?_⟩
  -- The file is known by where the walk found it, and the walk began at the source root.
  obtain ⟨more, hmore, rfl⟩ := target.exists_of_mem_sourceRoots hvalid hroot
  obtain ⟨steps, hsteps, rfl⟩ := exists_of_holds hvalid hmore hholds
  have hnames : ∀ c ∈ more ++ steps, c.IsName := List.forall_mem_append.2 ⟨hmore, hsteps⟩
  rw [same_iff, components_along _ (isStep_of_isName (isName_append hvalid hnames))] at hsame
  have hplace : packageRoot.components ++ (target.path.inner ++ (more ++ steps)) =
      packageRoot.components ++ (target.path.inner ++ more) ++ steps := by
    simp only [List.append_assoc]
  rw [startsWith_iff, ← hsame, components_place hvalid hmore, hplace]
  exact List.prefix_append _ _

/-- A set with public headers has a directory that they were found in. -/
theorem SourceSet.exists_publicDir {tree : Tree} {packageRoot : Path} {target : Target}
    {set : SourceSet} (h : resolve tree packageRoot target = .ok set) {header : Path}
    (hheader : header ∈ set.publicHeaders) : ∃ dir, set.publicDir = some dir := by
  obtain ⟨exclusions, files, headers, -, -, -, -, rfl⟩ := resolve_eq_ok h
  dsimp only at hheader ⊢
  cases hdir : target.publicHeadersDir?.map packageRoot.join with
  | none =>
    rw [hdir] at hheader
    cases mem_of_mem_sorted hheader
  | some dir => exact ⟨dir, rfl⟩

/-- Where the check of the source roots has passed, what lies below a source root of one target
    lies below none of another. -/
theorem Graph.not_both_startsWith {graph : Graph} (h : graph.checkRoots = .ok ()) {a b : Target}
    (ha : a ∈ graph.targets) (hb : b ∈ graph.targets) (hne : a.name ≠ b.name)
    {packageRoot x y path : Path} (hx : x ∈ a.sourceRoots) (hy : y ∈ b.sourceRoots)
    (hxpath : path.startsWith (packageRoot.join x) = true) :
    path.startsWith (packageRoot.join y) = false := by
  have hvalidA := graph.valid a ha
  have hvalidB := graph.valid b hb
  rw [Bool.eq_false_iff]
  intro hypath
  rw [startsWith_iff, Target.components_join_root hvalidA hx] at hxpath
  rw [startsWith_iff, Target.components_join_root hvalidB hy] at hypath
  obtain ⟨behind, hplace⟩ := hxpath
  rw [← hplace, List.append_assoc, List.prefix_append_right_inj] at hypath
  have hxsteps := (Target.mem_rootSteps_iff hvalidA).2 ⟨x, hx, rfl⟩
  have hysteps := (Target.mem_rootSteps_iff hvalidB).2 ⟨y, hy, rfl⟩
  exact graph.not_both_prefix h ha hb hne hxsteps hysteps (List.prefix_append _ behind) hypath

/-! ## Files of planned targets -/

namespace Plan.Made

variable {graph : Graph} {tree : Tree} {root : Path} {plan : Plan}

/-- A file of a planned target lies below no source root of a target of another name. -/
theorem file_outside_roots (h : plan.Made graph tree root) (hroots : graph.checkRoots = .ok ())
    {owner : PlannedTarget} (howner : owner ∈ plan.targets) {file : Path}
    (hfile : file ∈ owner.sources.files) {other : Target} (hother : other ∈ graph.targets)
    (hne : owner.name ≠ other.name) {sourceRoot : Path} (hroot : sourceRoot ∈ other.sourceRoots) :
    (owner.sources.root.join file).startsWith (root.join sourceRoot) = false := by
  obtain ⟨target, htarget, hname, hresolved, -, -⟩ := h.planned owner howner
  obtain ⟨own, hown, hbelow⟩ :=
    SourceSet.exists_root_of_file (graph.valid target htarget) hresolved hfile
  exact graph.not_both_startsWith hroots htarget hother (hname ▸ hne) hown hroot hbelow

theorem files_apart (h : plan.Made graph tree root) (hroots : graph.checkRoots = .ok ())
    {a b : PlannedTarget} (ha : a ∈ plan.targets) (hb : b ∈ plan.targets) (hne : a ≠ b)
    {f g : Path} (hf : f ∈ a.sources.files) (hg : g ∈ b.sources.files) :
    (a.sources.root.join f).same (b.sources.root.join g) = false := by
  obtain ⟨target, htarget, hname, hresolved, -, -⟩ := h.planned b hb
  obtain ⟨sourceRoot, hroot, hbelow⟩ :=
    SourceSet.exists_root_of_file (graph.valid target htarget) hresolved hg
  have houtside := h.file_outside_roots hroots ha hf htarget (hname ▸ h.name_ne ha hb hne) hroot
  rw [Bool.eq_false_iff]
  intro hsame
  rw [startsWith_iff, ← same_iff.1 hsame, ← startsWith_iff, houtside] at hbelow
  cases hbelow

/-- A header that a target offers stands in the source set of the planned target. -/
theorem exists_of_offeredBy (h : plan.Made graph tree root) {header : Path} {owner : String}
    (hoffered : plan.headers.OfferedBy header owner) :
    ∃ planned ∈ plan.targets, planned.name = owner ∧
      header.memOf planned.sources.publicHeaders = true ∧
      ∃ dir, planned.sources.publicDir = some dir := by
  obtain ⟨surface, hsurface, hoffers⟩ := hoffered
  obtain ⟨planned, hplanned, rfl⟩ := h.registered owner surface hsurface
  obtain ⟨target, -, -, hresolved, -, hrecord⟩ := h.planned planned hplanned
  obtain rfl := Option.some.inj (hsurface.symm.trans hrecord)
  have hregistered :
      (Registration.mk target planned.sources planned.closure).Offers header :=
    Registration.offers_surface.1 hoffers
  obtain ⟨offered, hmem, hcomponents⟩ := hregistered
  exact ⟨planned, hplanned, rfl, memOf_iff.2 ⟨offered, hmem, hcomponents⟩,
    SourceSet.exists_publicDir hresolved hmem⟩

end Plan.Made

/-! ## Two libraries in one directory

An application stands above two libraries that share a directory. The second one offers the headers
of the whole directory, although it compiles only a part of it. -/

namespace Commons

def app : Target := { name := "app", dependencies := ["closed", "open"], path := ⟨"app"⟩ }

def closed : Target := { name := "closed", path := ⟨"lib"⟩, sources := [⟨"in"⟩] }

/-- As a text, but not as a path, its source root begins with that of the other library. -/
def opened : Target :=
  { name := "open", path := ⟨"./lib/"⟩, sources := [⟨"./inside//"⟩], publicHeaders := some ⟨"."⟩ }

def graph : Graph := ⟨[app, closed, opened], by decide +kernel, by decide⟩

def descriptor : Descriptor :=
  { package := "commons"
    variant := .implicit
    cLanguageStandard := none
    targets := graph.targets
    products := [] }

def resolver : Resolver := { description := { name := "commons", targets := graph.targets } }

def tree : Tree :=
  { root := .directory [
      ("app", .directory [("main.c", .file "")]),
      ("lib", .directory [
        ("in", .directory [("private.h", .file ""), ("x.c", .file "")]),
        ("inside", .directory [("y.c", .file "")])])] }

def appSet : SourceSet :=
  { target := "app"
    root := ⟨"./app"⟩
    files := [⟨"main.c"⟩]
    publicDir := none
    publicHeaders := []
    unusedExclusions := [] }

def closedSet : SourceSet :=
  { target := "closed"
    root := ⟨"./lib"⟩
    files := [⟨"in/private.h"⟩, ⟨"in/x.c"⟩]
    publicDir := none
    publicHeaders := []
    unusedExclusions := [] }

def openedSet : SourceSet :=
  { target := "open"
    root := ⟨"././lib/"⟩
    files := [⟨"inside/y.c"⟩]
    publicDir := some ⟨"./lib"⟩
    publicHeaders := [⟨"in/private.h"⟩]
    unusedExclusions := [] }

theorem resolve_app : SourceSet.resolve tree ⟨"."⟩ app = .ok appSet := by decide +kernel

theorem resolve_closed : SourceSet.resolve tree ⟨"."⟩ closed = .ok closedSet := by decide +kernel

theorem resolve_opened : SourceSet.resolve tree ⟨"."⟩ opened = .ok openedSet := by decide +kernel

theorem descriptor_graph : descriptor.graph = .ok graph :=
  Descriptor.graph_eq_ok.2 ⟨rfl, by cbv, rfl, by decide +kernel⟩

theorem resolve_all : ∀ target ∈ graph.targets, ∃ set,
    SourceSet.resolve tree ⟨"."⟩ target = .ok set := by
  intro target htarget
  simp only [graph, List.mem_cons, List.not_mem_nil, or_false] at htarget
  rcases htarget with rfl | rfl | rfl
  · exact ⟨appSet, resolve_app⟩
  · exact ⟨closedSet, resolve_closed⟩
  · exact ⟨openedSet, resolve_opened⟩

theorem exists_made : ∃ plan, (resolver.resolve tree ⟨1, 0, 0⟩ none).1 = .ok plan ∧
    plan.Made graph tree ⟨"."⟩ :=
  PackageDescription.exists_resolve rfl rfl descriptor_graph resolve_all

/-- The application finds a header of the first library among those that the second one offers. -/
theorem resolveInclude_private {plan : Plan} (h : plan.Made graph tree ⟨"."⟩) :
    plan.resolveInclude "app" ⟨"in/private.h"⟩ = .ok (.offeredBy "open") := by
  obtain ⟨-, -, -, -, closure, hclosure, happ⟩ := h.exists_planned (by decide) resolve_app
  obtain ⟨-, -, -, -, closedNeeds, -, hclosed⟩ := h.exists_planned (by decide) resolve_closed
  obtain ⟨-, -, -, -, openedNeeds, -, hopened⟩ := h.exists_planned (by decide) resolve_opened
  have hbelow : graph.closure "app" = .ok ["closed", "open"] := by cbv
  obtain rfl := Except.ok.inj (hbelow.symm.trans hclosure)
  refine (HeaderIndex.resolve_eq_offeredBy_iff happ).2 ⟨by decide +kernel, ?_⟩
  -- Both libraries stand in the closure, but the one that the header belongs to offers nothing.
  refine HeaderIndex.firstOffering?_eq_some_iff.2 ⟨["closed"], [], rfl, ⟨_, hopened, ?_⟩, ?_⟩
  · have hoffers : (Registration.mk opened openedSet openedNeeds).Offers ⟨"in/private.h"⟩ :=
      ⟨⟨"in/private.h"⟩, List.mem_singleton_self _, rfl⟩
    exact Registration.offers_surface.2 hoffers
  · intro earlier hearlier hoffered
    obtain rfl := List.mem_singleton.1 hearlier
    obtain ⟨surface, hsurface, hoffers⟩ := hoffered
    obtain rfl := Option.some.inj (hsurface.symm.trans hclosed)
    have hregistered : (Registration.mk closed closedSet closedNeeds).Offers _ :=
      Registration.offers_surface.1 hoffers
    obtain ⟨_, hnone, -⟩ := hregistered
    cases hnone

end Commons

/-! ## The main statements -/

namespace Resolver

/-- No file is compiled by two targets of a plan. The check of the source roots, which sees to it,
    passes exactly when no root of one target is the beginning of a root of another. -/
theorem resolve_files_apart :
    (∀ (resolver : Resolver) (tree : Tree) (toolsVersion : Version) (platform : Option Platform)
        (plan : Plan), (resolver.resolve tree toolsVersion platform).1 = .ok plan →
      ∀ a ∈ plan.targets, ∀ b ∈ plan.targets, a ≠ b →
        ∀ f ∈ a.sources.files, ∀ g ∈ b.sources.files,
          (a.sources.root.join f).same (b.sources.root.join g) = false) ∧
    ∀ graph : Graph, graph.checkRoots = .ok () ↔
      ∀ a ∈ graph.targets, ∀ b ∈ graph.targets, a.name ≠ b.name →
        ∀ x ∈ a.rootSteps, ∀ y ∈ b.rootSteps, ¬x <+: y := by
  refine ⟨?_, fun graph => graph.checkRoots_eq_ok_iff⟩
  intro resolver tree toolsVersion platform plan h a ha b hb hne f hf g hg
  obtain ⟨graph, hroots, hmade, -⟩ := PackageDescription.made_of_resolve h
  exact hmade.files_apart hroots ha hb hne hf hg

theorem resolve_files_apart_commons :
    ∃ plan, (Commons.resolver.resolve Commons.tree ⟨1, 0, 0⟩ none).1 = .ok plan ∧
      ∃ a ∈ plan.targets, ∃ b ∈ plan.targets, a.sources = Commons.closedSet ∧
        b.sources = Commons.openedSet ∧ ∀ f ∈ a.sources.files, ∀ g ∈ b.sources.files,
          (a.sources.root.join f).same (b.sources.root.join g) = false := by
  obtain ⟨plan, hplan, hmade⟩ := Commons.exists_made
  obtain ⟨a, ha, haName, haSet, -⟩ := hmade.exists_planned (by decide) Commons.resolve_closed
  obtain ⟨b, hb, hbName, hbSet, -⟩ := hmade.exists_planned (by decide) Commons.resolve_opened
  have hne : a ≠ b := by
    intro heq
    rw [heq, hbName] at haName
    exact absurd haName (by decide)
  exact ⟨plan, hplan, a, ha, b, hb, haSet, hbSet,
    resolve_files_apart.1 Commons.resolver Commons.tree ⟨1, 0, 0⟩ none plan hplan a ha b hb hne⟩

/-- What a target sees of another is a public header of that target, in its public headers
    directory. When the file there is compiled by a third target, it lies outside all source roots
    of the target that offers it. -/
theorem resolve_include_outside_roots (resolver : Resolver) (tree : Tree)
    (toolsVersion : Version) (platform : Option Platform) {plan : Plan}
    (h : (resolver.resolve tree toolsVersion platform).1 = .ok plan) {name owner : String}
    {written : Path} (hseen : plan.resolveInclude name written = .ok (.offeredBy owner)) :
    ∃ offering ∈ plan.targets, offering.name = owner ∧
      written.normalize.memOf offering.sources.publicHeaders = true ∧
      ∃ dir, offering.sources.publicDir = some dir ∧
        ∀ other ∈ plan.targets, other.name ≠ owner →
          ∀ file ∈ other.sources.files,
            (other.sources.root.join file).same (dir.join written.normalize) = true →
            ∀ declared ∈ resolver.description.targets, declared.name = owner →
              ∀ sourceRoot ∈ declared.sourceRoots,
                (dir.join written.normalize).startsWith
                  (resolver.packageRoot.join sourceRoot) = false := by
  obtain ⟨graph, hroots, hmade, hdeclared⟩ := PackageDescription.made_of_resolve h
  obtain ⟨own, hown⟩ := HeaderIndex.exists_surface_of_resolve hseen
  obtain ⟨-, hsearch⟩ := (HeaderIndex.resolve_eq_offeredBy_iff hown).1 hseen
  obtain ⟨-, -, -, hoffered, -⟩ := HeaderIndex.firstOffering?_eq_some_iff.1 hsearch
  obtain ⟨offering, hoffering, rfl, hheader, dir, hdir⟩ := hmade.exists_of_offeredBy hoffered
  refine ⟨offering, hoffering, rfl, hheader, dir, hdir, ?_⟩
  intro other hother hne file hfile hsame declared hmem hname sourceRoot hroot
  obtain ⟨target, htarget, htargetName, hsources⟩ := hdeclared declared hmem
  rw [← hsources] at hroot
  have houtside := hmade.file_outside_roots hroots hother hfile htarget
    (by rw [htargetName, hname]; exact hne) hroot
  rwa [← Bool.not_eq_true, startsWith_iff, ← same_iff.1 hsame, ← startsWith_iff,
    Bool.not_eq_true]

theorem resolve_include_outside_roots_commons :
    ∃ plan, (Commons.resolver.resolve Commons.tree ⟨1, 0, 0⟩ none).1 = .ok plan ∧
      plan.resolveInclude "app" ⟨"in/private.h"⟩ = .ok (.offeredBy "open") ∧
      ∃ offering ∈ plan.targets, offering.name = "open" ∧
        ∃ dir, offering.sources.publicDir = some dir ∧
          ∀ other ∈ plan.targets, other.name ≠ "open" →
            ∀ file ∈ other.sources.files,
              (other.sources.root.join file).same (dir.join ⟨"in/private.h"⟩) = true →
              (dir.join ⟨"in/private.h"⟩).startsWith ⟨"./lib/inside"⟩ = false := by
  obtain ⟨plan, hplan, hmade⟩ := Commons.exists_made
  have hseen := Commons.resolveInclude_private hmade
  obtain ⟨offering, hoffering, hname, -, dir, hdir, houtside⟩ :=
    resolve_include_outside_roots Commons.resolver Commons.tree ⟨1, 0, 0⟩ none hplan hseen
  have hnormal : (⟨"in/private.h"⟩ : Path).normalize = ⟨"in/private.h"⟩ := by decide +kernel
  have hjoin : Commons.resolver.packageRoot.join ⟨"lib/inside"⟩ = ⟨"./lib/inside"⟩ := by
    decide +kernel
  have hdeclared : Commons.opened ∈ Commons.resolver.description.targets := by decide
  have hroot : (⟨"lib/inside"⟩ : Path) ∈ Commons.opened.sourceRoots := by decide +kernel
  rw [hnormal] at houtside
  refine ⟨plan, hplan, hseen, offering, hoffering, hname, dir, hdir, ?_⟩
  intro other hother hne file hfile hsame
  rw [← hjoin]
  exact houtside other hother hne file hfile hsame Commons.opened hdeclared rfl _ hroot

/-- The header that a target offers can be one that another target compiles and does not offer. -/
theorem resolve_include_reaches_internal :
    ∃ plan, (Commons.resolver.resolve Commons.tree ⟨1, 0, 0⟩ none).1 = .ok plan ∧
      plan.resolveInclude "app" ⟨"in/private.h"⟩ = .ok (.offeredBy "open") ∧
      ∃ offering ∈ plan.targets, offering.name = "open" ∧
        ∃ dir, offering.sources.publicDir = some dir ∧
          ∃ other ∈ plan.targets, other.name ≠ "app" ∧ other.name ≠ "open" ∧
            (∃ file ∈ other.sources.files,
              (other.sources.root.join file).same (dir.join ⟨"in/private.h"⟩) = true) ∧
            ∀ header ∈ other.publicHeaders,
              header.same (dir.join ⟨"in/private.h"⟩) = false := by
  obtain ⟨plan, hplan, hmade⟩ := Commons.exists_made
  obtain ⟨offering, hoffering, hoffers, hopened, -⟩ :=
    hmade.exists_planned (by decide) Commons.resolve_opened
  obtain ⟨other, hother, howns, hclosed, -⟩ :=
    hmade.exists_planned (by decide) Commons.resolve_closed
  refine ⟨plan, hplan, Commons.resolveInclude_private hmade, offering, hoffering, hoffers, ⟨"./lib"⟩,
    by rw [hopened]; rfl, other, hother, ?_, ?_, ?_, ?_⟩
  · rw [howns]; decide
  · rw [howns]; decide
  · rw [hclosed]
    exact ⟨⟨"in/private.h"⟩, by decide, by decide +kernel⟩
  · intro header hheader
    obtain ⟨dir, hdir, -⟩ := PlannedTarget.mem_publicHeaders.1 hheader
    rw [hclosed] at hdir
    cases hdir

end Resolver

end PackagePlan
