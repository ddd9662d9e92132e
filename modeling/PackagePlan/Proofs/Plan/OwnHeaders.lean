/-
  Under which names a target finds its own headers. A header file is known by its path from the
  target directory, unless it is public, and by what is left of this path below each private search
  path (`SourceSet.Names`); a public header is known by its path below the public headers directory.
  No other name is the target's own, and no header is without a name. Main statement:
  `resolve_finds_own`.
-/
import PackagePlan.Proofs.Path.Relative
import PackagePlan.Proofs.Plan.Search

namespace PackagePlan

open PackagePlan.Path

namespace Path

theorem undotted_of_isPlain {p : Path} (h : p.IsPlain) : p.undotted = p.components :=
  undotted_of_not_mem fun hmem => h _ hmem

theorem components_normalize_of_isPlain {p : Path} (h : p.IsPlain) :
    p.normalize.components = p.components :=
  (components_normalize p).trans (undotted_of_isPlain h)

theorem memOf_congr {p q : Path} (h : p.components = q.components) (paths : List Path) :
    p.memOf paths = q.memOf paths := by
  unfold memOf same
  rw [h]

end Path

namespace SourceSet

/-! ## Names of header files -/

/-- A file of the target is the file of one of its public headers. -/
def Publishes (set : SourceSet) (file : Path) : Prop :=
  ∃ dir, set.publicDir = some dir ∧
    ∃ offered ∈ set.publicHeaders, (set.root.join file).same (dir.join offered) = true

/-- The names of a header file, apart from that of a public header. -/
inductive Names (set : SourceSet) (searchPaths : List Path) (file header : Path) : Prop where
  /-- The path of a header that is not public. -/
  | itself (internal : ¬set.Publishes file) (same : header.same file = true)
  /-- The path of a header from a search path that it lies below. -/
  | searched (dir : Path) (declared : dir ∈ searchPaths)
      (below : file.components = dir.undotted ++ header.components)

/-- The names of the headers of a target with these private search paths. -/
def HasOwn (set : SourceSet) (searchPaths : List Path) (header : Path) : Prop :=
  header.memOf set.publicHeaders = true ∨ ∃ file ∈ set.headers, set.Names searchPaths file header

/-- The name is one of this header file. -/
def Leads (set : SourceSet) (searchPaths : List Path) (header file : Path) : Prop :=
  set.Names searchPaths file header ∨
    header.memOf set.publicHeaders = true ∧
      ∃ dir, set.publicDir = some dir ∧ (set.root.join file).same (dir.join header) = true

variable {tree : Tree} {packageRoot : Path} {target : Target} {set : SourceSet}

theorem HasOwn.congr {searchPaths : List Path} {header other : Path}
    (h : set.HasOwn searchPaths header) (hsame : other.components = header.components) :
    set.HasOwn searchPaths other := by
  rcases h with hpublic | ⟨file, hfile, hnamed⟩
  · exact .inl ((memOf_congr hsame _).trans hpublic)
  · refine .inr ⟨file, hfile, ?_⟩
    cases hnamed with
    | itself hinternal hitself =>
      exact .itself hinternal (same_iff.2 (hsame.trans (same_iff.1 hitself)))
    | searched dir hdir hbelow => exact .searched dir hdir (hsame ▸ hbelow)

theorem mem_headers {file : Path} :
    file ∈ set.headers ↔ file ∈ set.files ∧ FileKind.of file = .header := by
  unfold headers ofKind
  rw [List.mem_filter, beq_iff_eq]

section
variable (hvalid : target.isValid = true) (h : resolve tree packageRoot target = .ok set)
include hvalid h

theorem isPlain_of_mem_headers {file : Path} (hfile : file ∈ set.headers) : file.IsPlain :=
  (((resolve_exact hvalid h).files file).1 (memOf_of_mem (mem_headers.1 hfile).1)).1

theorem isPlain_of_mem_publicHeaders {header : Path} (hheader : header ∈ set.publicHeaders) :
    header.IsPlain :=
  (((resolve_exact hvalid h).publicHeaders header).1 (memOf_of_mem hheader)).1

/-- What is registered as the file of a public header is the file in the public headers
directory. -/
theorem components_fileOf {dir offered : Path} (hdir : set.publicDir = some dir)
    (hoffered : offered ∈ set.publicHeaders) :
    (dir.join offered).components =
      set.root.components ++ (HeaderSurface.fileOf set offered).components := by
  obtain ⟨-, found, hfound, -, -, p, hp, hsame, -⟩ :=
    ((resolve_exact hvalid h).publicHeaders offered).1 (memOf_of_mem hoffered)
  obtain rfl := Option.some.inj (hdir.symm.trans hfound)
  rw [same_iff, components_join_plain _ hp] at hsame
  obtain ⟨rest, hrest⟩ := exists_relativeTo?_iff.2 (hsame ▸ List.prefix_append _ _)
  unfold HeaderSurface.fileOf
  rw [hdir, components_of_relativeTo? hrest]
  dsimp only
  rw [hrest, Option.getD_some]

theorem publishes_iff (closure : List String) {file : Path} (hfile : file.IsPlain) :
    (Registration.mk target set closure).Publishes file ↔ set.Publishes file := by
  unfold Registration.Publishes Publishes
  dsimp only
  constructor
  · intro hpublic
    obtain ⟨offered, hoffered, hsame⟩ := hpublic
    obtain ⟨dir, hdir⟩ := exists_publicDir h hoffered
    refine ⟨dir, hdir, offered, hoffered, ?_⟩
    rw [same_iff, components_join_plain _ hfile, components_fileOf hvalid h hdir hoffered, hsame]
  · intro hpublic
    obtain ⟨dir, hdir, offered, hoffered, hsame⟩ := hpublic
    rw [same_iff, components_join_plain _ hfile, components_fileOf hvalid h hdir hoffered] at hsame
    exact ⟨offered, hoffered, List.append_cancel_left hsame⟩

/-- What the registration of a target knows are its own names. -/
theorem knows_iff_hasOwn (closure : List String) {header : Path} :
    (Registration.mk target set closure).Knows header ↔
      set.HasOwn target.headerSearchPaths header := by
  have hoffers : (Registration.mk target set closure).Offers header ↔
      header.memOf set.publicHeaders = true := memOf_iff.symm
  unfold Registration.Knows HasOwn
  rw [hoffers]
  refine or_congr_right (exists_congr fun file => and_congr_right fun hfile => ?_)
  have hsearched : (∃ dir ∈ target.privateSearchPaths, ∃ rest,
      file.relativeTo? dir = some rest ∧ header.components = rest.components) ↔
      ∃ dir ∈ target.headerSearchPaths, file.components = dir.undotted ++ header.components := by
    unfold Target.privateSearchPaths
    simp only [relativeTo?_leads_iff, List.mem_map, exists_exists_and_eq_and, components_normalize]
  dsimp only
  rw [publishes_iff hvalid h closure (isPlain_of_mem_headers hvalid h hfile), hsearched]
  constructor
  · intro hknown
    rcases hknown with ⟨hinternal, hsame⟩ | ⟨dir, hdir, hbelow⟩
    · exact .itself hinternal (same_iff.2 hsame)
    · exact .searched dir hdir hbelow
  · intro hnamed
    cases hnamed with
    | itself hinternal hsame => exact .inl ⟨hinternal, same_iff.1 hsame⟩
    | searched dir hdir hbelow => exact .inr ⟨dir, hdir, hbelow⟩

/-- No header is without a name: it is public, or it has its own path. -/
theorem exists_leads (searchPaths : List Path) {file : Path} (hfile : file ∈ set.headers) :
    ∃ header : Path, header.IsPlain ∧ set.HasOwn searchPaths header ∧
      set.Leads searchPaths header file := by
  by_cases hpublic : set.Publishes file
  · obtain ⟨dir, hdir, offered, hoffered, hsame⟩ := hpublic
    have hmem := memOf_of_mem hoffered
    exact ⟨offered, isPlain_of_mem_publicHeaders hvalid h hoffered, .inl hmem,
      .inr ⟨hmem, dir, hdir, hsame⟩⟩
  · have hnamed : set.Names searchPaths file file := .itself hpublic (same_iff.2 rfl)
    exact ⟨file, isPlain_of_mem_headers hvalid h hfile, .inr ⟨file, hfile, hnamed⟩, .inl hnamed⟩

end

end SourceSet

/-! ## In a plan -/

/-- What a planned target with these private search paths finds of its own. -/
structure Plan.FindsOwn (plan : Plan) (searchPaths : List Path) (planned : PlannedTarget) :
    Prop where
  own_iff : ∀ written, plan.resolveInclude planned.name written = .ok .own ↔
    planned.sources.HasOwn searchPaths written.normalize
  /-- Every header is found under a name that leads to it. -/
  reached : ∀ file ∈ planned.sources.headers, ∃ written,
    plan.resolveInclude planned.name written = .ok .own ∧
      planned.sources.Leads searchPaths written file

namespace Plan.Made

variable {graph : Graph} {tree : Tree} {root : Path} {plan : Plan}

theorem exists_findsOwn (h : plan.Made graph tree root) {planned : PlannedTarget}
    (hmem : planned ∈ plan.targets) :
    ∃ target ∈ graph.targets, target.name = planned.name ∧
      SourceSet.resolve tree root target = .ok planned.sources ∧
      plan.FindsOwn target.headerSearchPaths planned := by
  obtain ⟨target, htarget, hname, hresolved, -, hsurface⟩ := h.planned planned hmem
  have hvalid := graph.valid target htarget
  have hown : ∀ written, plan.resolveInclude planned.name written = .ok .own ↔
      planned.sources.HasOwn target.headerSearchPaths written.normalize := fun written =>
    (HeaderIndex.resolve_eq_own_iff hsurface).trans (Registration.knows_surface.trans
      (SourceSet.knows_iff_hasOwn hvalid hresolved planned.closure))
  refine ⟨target, htarget, hname, hresolved, hown, fun file hfile => ?_⟩
  obtain ⟨header, hplain, hhas, hleads⟩ :=
    SourceSet.exists_leads hvalid hresolved target.headerSearchPaths hfile
  exact ⟨header, (hown header).2 (hhas.congr (components_normalize_of_isPlain hplain)), hleads⟩

end Plan.Made

/-! ## A library with a private corner

The library compiles `lib` and offers `include`. It also searches `private`, which is no part of
what it compiles. -/

namespace Vault

def target : Target :=
  { name := "vault"
    path := ⟨"src"⟩
    sources := [⟨"lib"⟩]
    publicHeaders := some ⟨"include"⟩
    headerSearchPaths := [⟨"lib"⟩, ⟨"./private/"⟩] }

def tree : Tree :=
  { root := .directory [("src", .directory [
      ("include", .directory [("api.h", .file "")]),
      ("lib", .directory [("a.c", .file ""), ("a.h", .file "")]),
      ("private", .directory [("detail.h", .file "")])])] }

def resolver : Resolver := { description := { name := "vault", targets := [target] } }

def graph : Graph := ⟨[target], by decide +kernel, by decide⟩

def descriptor : Descriptor :=
  { package := "vault"
    variant := .implicit
    cLanguageStandard := none
    targets := graph.targets
    products := [] }

def set : SourceSet :=
  { target := "vault"
    root := ⟨"./src"⟩
    files := [⟨"lib/a.c"⟩, ⟨"lib/a.h"⟩]
    publicDir := some ⟨"./src/include"⟩
    publicHeaders := [⟨"api.h"⟩]
    unusedExclusions := [] }

theorem resolve_target : SourceSet.resolve tree ⟨"."⟩ target = .ok set := by decide +kernel

theorem descriptor_graph : descriptor.graph = .ok graph :=
  Descriptor.graph_eq_ok.2 ⟨rfl, by cbv, rfl, by decide +kernel⟩

theorem exists_made : ∃ plan, (resolver.resolve tree ⟨1, 0, 0⟩ none).1 = .ok plan ∧
    plan.Made graph tree ⟨"."⟩ := by
  have hall : ∀ declared ∈ graph.targets, ∃ set,
      SourceSet.resolve tree ⟨"."⟩ declared = .ok set := by
    intro declared hdeclared
    obtain rfl := List.mem_singleton.1 hdeclared
    exact ⟨set, resolve_target⟩
  exact PackageDescription.exists_resolve rfl rfl descriptor_graph hall

/-- In a plan the library stands alone, with nothing in its closure. -/
theorem exists_planned {plan : Plan} (h : plan.Made graph tree ⟨"."⟩) :
    ∃ planned ∈ plan.targets, planned.name = "vault" ∧ planned.sources = set ∧
      plan.headers.surface? "vault" = some (.of target set []) := by
  obtain ⟨planned, hmem, hname, hset, closure, hclosure, hsurface⟩ :=
    h.exists_planned (List.mem_singleton_self _) resolve_target
  have hnone : graph.closure "vault" = .ok [] := by cbv
  obtain rfl := Except.ok.inj (hnone.symm.trans hclosure)
  exact ⟨planned, hmem, hname, hset, hsurface⟩

end Vault

namespace Resolver

/-- A target of a plan finds its own headers under just the names that the package gives them. -/
theorem resolve_finds_own (resolver : Resolver) (tree : Tree) (toolsVersion : Version)
    (platform : Option Platform) {plan : Plan}
    (h : (resolver.resolve tree toolsVersion platform).1 = .ok plan) :
    ∀ planned ∈ plan.targets, ∃ declared ∈ resolver.description.targets,
      declared.name = planned.name ∧ plan.FindsOwn declared.headerSearchPaths planned := by
  intro planned hmem
  obtain ⟨descriptor, graph, hdescriptor, -, hgraph, hplan⟩ := PackageDescription.resolve_eq_ok.1 h
  obtain ⟨variant, -, hmaterialize⟩ := PackageDescription.descriptorFor_eq_ok hdescriptor
  obtain ⟨htargets, -⟩ := Descriptor.graph_eq_ok.1 hgraph
  obtain ⟨target, htarget, hname, -, hfinds⟩ :=
    (Descriptor.plan_made hplan).exists_findsOwn hmem
  obtain ⟨declared, hdeclared, exclude, rfl⟩ :=
    PackageDescription.exists_declared hmaterialize (htargets ▸ htarget)
  exact ⟨declared, hdeclared, hname, hfinds⟩

/-- The library finds a header that it keeps to itself under two names. -/
theorem resolve_finds_own_vault :
    ∃ plan, (Vault.resolver.resolve Vault.tree ⟨1, 0, 0⟩ none).1 = .ok plan ∧
      plan.resolveInclude "vault" ⟨"lib/./a.h"⟩ = .ok .own ∧
      plan.resolveInclude "vault" ⟨"a.h"⟩ = .ok .own := by
  obtain ⟨plan, hplan, hmade⟩ := Vault.exists_made
  obtain ⟨planned, hmem, hname, hset, -⟩ := Vault.exists_planned hmade
  obtain ⟨declared, hdeclared, -, hfinds⟩ :=
    resolve_finds_own Vault.resolver Vault.tree ⟨1, 0, 0⟩ none hplan planned hmem
  obtain rfl := List.mem_singleton.1 hdeclared
  have hown := hfinds.own_iff
  rw [hname, hset] at hown
  have hfile : (⟨"lib/a.h"⟩ : Path) ∈ Vault.set.headers := by decide +kernel
  refine ⟨plan, hplan, (hown _).2 (.inr ⟨_, hfile, ?_⟩), (hown _).2 (.inr ⟨_, hfile, ?_⟩)⟩
  · refine .itself ?_ (by decide +kernel)
    intro hpublic
    obtain ⟨dir, hdir, offered, hoffered, hsame⟩ := hpublic
    obtain rfl := Option.some.inj hdir
    obtain rfl := List.mem_singleton.1 hoffered
    revert hsame
    decide +kernel
  · exact .searched ⟨"lib"⟩ List.mem_cons_self (by decide +kernel)

end Resolver

end PackagePlan
