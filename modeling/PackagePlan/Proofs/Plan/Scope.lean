/-
  How far an exclusion pattern reaches. Two descriptions of which one has further patterns of one
  target are resolved side by side. The graphs have the same edges, so that the orders, the waves
  and the closures agree; the indexes of headers agree in all that include directories are made of
  (`HeaderIndex.SameDirs`), whatever has been registered; and the source set of a target without
  new patterns is the same in both. The plans differ in what the new patterns take out of their
  target, and in the public headers of products. Main statement: `resolve_scoped`.
-/
import PackagePlan.Proofs.Description.Narrowing
import PackagePlan.Proofs.Graph.Edges
import PackagePlan.Proofs.Plan.Platform
import PackagePlan.Proofs.Plan.Schedules

namespace PackagePlan

variable {owner : String} {added : List String}

/-! ## The plans -/

/-- The planned target in a plan with further patterns: nothing but its source set is another, and
    that only under the given name. -/
structure PlannedTarget.NarrowedBy (owner : String) (added : List String)
    (base more : PlannedTarget) : Prop where
  record : more = { base with sources := more.sources }
  others : base.name ≠ owner → more = base
  sources : base.name = owner → base.sources.NarrowedBy owner added more.sources

/-- The plan of a description with further patterns. -/
structure Plan.NarrowedBy (owner : String) (added : List String) (base more : Plan) : Prop where
  buildOrder : more.buildOrder = base.buildOrder
  waves : more.waves = base.waves
  targets : List.Forall₂ (PlannedTarget.NarrowedBy owner added) base.targets more.targets
  /-- The products have the same members and closures. -/
  products : List.Forall₂ (fun made made' => made' = { made with
    publicHeaders := made'.publicHeaders }) base.products more.products

/-! ## Include directories -/

/-- What include directories are made of. -/
def HeaderSurface.dirs (surface : HeaderSurface) : List Path × Option Path × List String :=
  (surface.searchDirs, surface.publicDir, surface.closure)

namespace HeaderIndex

/-- The two indexes have the same targets, with the same directories. -/
def SameDirs (index other : HeaderIndex) : Prop :=
  ∀ name, (index.surface? name).map HeaderSurface.dirs =
    (other.surface? name).map HeaderSurface.dirs

variable {index other : HeaderIndex}

theorem includeDirs_congr (h : index.SameDirs other) (name : String) :
    index.includeDirs name = other.includeDirs name := by
  have hpublic : ∀ member, (index.surface? member).bind (·.publicDir) =
      (other.surface? member).bind (·.publicDir) := by
    intro member
    have hdirs : ∀ index : HeaderIndex, (index.surface? member).bind (·.publicDir) =
        ((index.surface? member).map HeaderSurface.dirs).bind (·.2.1) := by
      intro index
      cases index.surface? member <;> rfl
    rw [hdirs, hdirs, h member]
  have hname := h name
  unfold includeDirs
  cases hown : index.surface? name with
  | none =>
    rw [hown, Option.map_none] at hname
    rw [Option.map_eq_none_iff.1 hname.symm]
  | some own =>
    rw [hown, Option.map_some] at hname
    obtain ⟨own', hown', hsame⟩ := Option.map_eq_some_iff.1 hname.symm
    obtain ⟨hsearch, hrest⟩ := Prod.mk.inj hsame
    obtain ⟨hdir, hclosure⟩ := Prod.mk.inj hrest
    rw [hown']
    simp only [hsearch, hdir, hclosure, hpublic]

theorem SameDirs.register (h : index.SameDirs other) {target target' : Target}
    (htarget : target.SameBut owner target') {set set' : SourceSet} (hroot : set'.root = set.root)
    (hdir : set'.publicDir = set.publicDir) (closure : List String) :
    (index.register target set closure).SameDirs (other.register target' set' closure) := by
  intro name
  rw [surface?_register, surface?_register, htarget.name]
  split
  · have hpaths : target'.privateSearchPaths = target.privateSearchPaths := by
      rw [htarget.record]
      rfl
    simp only [Option.map_some, HeaderSurface.dirs, HeaderSurface.of, hroot, hdir, hpaths]
  · exact h name

end HeaderIndex

/-! ## Side by side -/

/-- The source set of a target in a plan with further patterns. -/
structure SourceSet.ScopedTo (owner : String) (added : List String) (name : String)
    (base more : SourceSet) : Prop where
  others : name ≠ owner → more = base
  narrowed : name = owner → base.NarrowedBy owner added more

namespace SourceSet.ScopedTo

variable {name : String} {base more : SourceSet}

theorem root (h : ScopedTo owner added name base more) : more.root = base.root := by
  by_cases hname : name = owner
  · exact (h.narrowed hname).root
  · rw [h.others hname]

theorem publicDir (h : ScopedTo owner added name base more) : more.publicDir = base.publicDir := by
  by_cases hname : name = owner
  · exact (h.narrowed hname).publicDir
  · rw [h.others hname]

end SourceSet.ScopedTo

namespace Graph

variable {graph other : Graph}

theorem edges_of_gains {target target' : Target} (h : target.Gains owner added target') :
    target'.edges = target.edges := by
  rw [h.record]
  rfl

theorem sameEdges_of_gains {targets others : List Target}
    (h : List.Forall₂ (Target.Gains owner added) targets others) : SameEdges targets others :=
  sameEdges_of_forall₂ edges_of_gains h

section
variable (hgains : List.Forall₂ (Target.Gains owner added) graph.targets other.targets)
include hgains

/-- What is resolved under one name in both graphs. -/
theorem scopedTo_of_lookup {tree : Tree} {root : Path} {schedule schedule' : Schedule}
    {waves waves' : List (List String)} {sources sources' : List (String × SourceSet)}
    (h : graph.allSources tree root schedule waves = .ok sources)
    (h' : other.allSources tree root schedule' waves' = .ok sources') {name : String}
    {set set' : SourceSet} (hset : sources.lookup name = some set)
    (hset' : sources'.lookup name = some set') : set.ScopedTo owner added name set' := by
  obtain ⟨target, htarget, hresolved⟩ := resolve_of_lookup h hset
  obtain ⟨target', htarget', hresolved'⟩ := resolve_of_lookup h' hset'
  have hgained := rel_of_target? edges_of_gains hgains htarget htarget'
  obtain ⟨hmem, rfl⟩ := target?_eq_some_iff.1 htarget
  constructor
  · intro hne
    rw [hgained.others hne] at hresolved'
    exact Except.ok.inj (hresolved'.symm.trans hresolved)
  · rintro rfl
    rw [hgained.record] at hresolved'
    exact SourceSet.resolve_narrowed (graph.valid target hmem) (hgained.exclude rfl) hresolved
      hresolved'

/-- Two runs of planning over the same names keep their indexes in step, and so plan the same
    targets but for the source set of one. -/
theorem planTargets_narrowed {standard : Option LanguageStandard}
    {sources sources' : List (String × SourceSet)}
    (hsources : ∀ name set set', sources.lookup name = some set →
      sources'.lookup name = some set' → set.ScopedTo owner added name set')
    {index index' full full' : HeaderIndex} (hindex : index.SameDirs index') {names : List String}
    {planned planned' : List PlannedTarget}
    (h : graph.planTargets standard sources index names = .ok (full, planned))
    (h' : other.planTargets standard sources' index' names = .ok (full', planned')) :
    List.Forall₂ (PlannedTarget.NarrowedBy owner added) planned planned' := by
  induction names generalizing index index' planned planned' with
  | nil =>
    obtain ⟨-, rfl⟩ := Prod.mk.inj (Except.ok.inj h)
    obtain ⟨-, rfl⟩ := Prod.mk.inj (Except.ok.inj h')
    exact .nil
  | cons name rest ih =>
    obtain ⟨target, set, closure, dirs, others, htarget, hset, hclosure, hdirs, hothers, rfl⟩ :=
      planTargets_cons_ok h
    obtain ⟨target', set', closure', dirs', others', htarget', hset', hclosure', hdirs', hothers',
      rfl⟩ := planTargets_cons_ok h'
    have hgained := rel_of_target? edges_of_gains hgains htarget htarget'
    have hscoped := hsources name set set' hset hset'
    obtain ⟨-, rfl⟩ := target?_eq_some_iff.1 htarget
    rw [← closure_congr (sameEdges_of_gains hgains), hclosure] at hclosure'
    obtain rfl := Except.ok.inj hclosure'
    have hgrown := hindex.register hgained.toSameBut hscoped.root hscoped.publicDir closure
    rw [← HeaderIndex.includeDirs_congr hgrown, hdirs] at hdirs'
    obtain rfl := Except.ok.inj hdirs'
    refine .cons ?_ (ih hgrown hothers hothers')
    exact
      { record := by rw [hgained.record]; rfl
        others := fun hne => by rw [hgained.others hne, hscoped.others hne]
        sources := hscoped.narrowed }

/-- Products are planned with the same closures. -/
theorem planProduct_narrowed {order : List String} {targets targets' : List PlannedTarget}
    {product : Product} {made made' : PlannedProduct}
    (h : graph.planProduct order targets product = .ok made)
    (h' : other.planProduct order targets' product = .ok made') :
    made' = { made with publicHeaders := made'.publicHeaders } := by
  unfold planProduct at h h'
  rw [← closure_congr (sameEdges_of_gains hgains)] at h'
  obtain ⟨closures, hclosures, h⟩ := Outcome.bind_eq_ok.1 h
  obtain ⟨closures', hclosures', h'⟩ := Outcome.bind_eq_ok.1 h'
  obtain rfl := Except.ok.inj (hclosures.symm.trans hclosures')
  obtain rfl := Except.ok.inj h
  obtain rfl := Except.ok.inj h'
  rfl

end

end Graph

/-! ## Two descriptors -/

theorem Descriptor.plan_narrowed {descriptor descriptor' : Descriptor}
    (hgains : descriptor.Gains owner added descriptor') {graph graph' : Graph}
    (hgraph : descriptor.graph = .ok graph) (hgraph' : descriptor'.graph = .ok graph') {tree : Tree}
    {root : Path} {schedule schedule' : Schedule} {toolsVersion : Version}
    {platform : Option Platform} {plan plan' : Plan}
    (h : descriptor.plan graph tree root schedule toolsVersion platform = .ok plan)
    (h' : descriptor'.plan graph' tree root schedule' toolsVersion platform = .ok plan') :
    plan.NarrowedBy owner added plan' := by
  obtain ⟨htargets, -⟩ := graph_eq_ok.1 hgraph
  obtain ⟨htargets', -⟩ := graph_eq_ok.1 hgraph'
  have hgained : List.Forall₂ (Target.Gains owner added) graph.targets graph'.targets := by
    rw [htargets, htargets']
    exact hgains.targets
  have hedges := Graph.sameEdges_of_gains hgained
  obtain ⟨order, waves, sources, headers, targets, products, horder, hwaves, hsources, hplanned,
    hmade, rfl⟩ := plan_eq_ok h
  obtain ⟨order', waves', sources', headers', targets', products', horder', hwaves', hsources',
    hplanned', hmade', rfl⟩ := plan_eq_ok h'
  obtain rfl := Except.ok.inj (horder.symm.trans ((Graph.buildOrder_congr hedges).trans horder'))
  obtain rfl := Except.ok.inj (hwaves.symm.trans ((Graph.waves_congr hedges).trans hwaves'))
  rw [hgains.cLanguageStandard] at hplanned'
  rw [hgains.products] at hmade'
  exact
    { buildOrder := rfl
      waves := rfl
      targets := Graph.planTargets_narrowed hgained
        (fun _ _ _ => Graph.scopedTo_of_lookup hgained hsources hsources') (fun _ => rfl) hplanned
        hplanned'
      products := Outcome.forall₂_of_mapM_eq_ok
        (fun _ _ _ => Graph.planProduct_narrowed hgained) hmade hmade' }

/-! ## The libraries with further patterns

The first of the two libraries in one directory gets two patterns, one in its own list and one
from the newer variant. The second one offers the header that the pattern of the variant names. -/

namespace Commons

def narrowedClosed : Target := { closed with exclude := ["docs"] }

def narrowedSpec : VariantSpec :=
  { stagedDescriptor.variant.spec with extraExclude := .insert ∅ "closed" ["in/private.h"] }

def narrowed : PackageDescription :=
  { staged.description with
    targets := [app, narrowedClosed, opened]
    variants := variants.insert "new" narrowedSpec }

def narrowedGraph : Graph :=
  ⟨[app, { closed with exclude := ["docs", "in/private.h"] }, opened], by decide +kernel, by decide⟩

def narrowedDescriptor : Descriptor :=
  { stagedDescriptor with
    variant := ⟨"new", narrowedSpec⟩
    targets := narrowedGraph.targets }

theorem narrowedDescriptor_graph : narrowedDescriptor.graph = .ok narrowedGraph :=
  Descriptor.graph_eq_ok.2 ⟨rfl, by cbv, rfl, by decide +kernel⟩

theorem resolve_narrowed_closed :
    SourceSet.resolve tree ⟨"."⟩ { closed with exclude := ["docs", "in/private.h"] } =
      .ok { closedSet with files := [⟨"in/x.c"⟩], unusedExclusions := ["docs"] } := by
  decide +kernel

theorem narrowed_addsExclusions :
    staged.description.AddsExclusions "closed" ["docs", "in/private.h"] ⟨6, 1, 0⟩ narrowed where
  name := rfl
  cLanguageStandard := rfl
  products := rfl
  targets := .cons ⟨rfl, fun _ => rfl⟩ (.cons ⟨rfl, fun hne => absurd rfl hne⟩
    (.cons ⟨rfl, fun _ => rfl⟩ .nil))
  variants := .insert (by decide +kernel) (.insert "closed" stagedDescriptor.variant.spec _)
  patterns pattern := by
    have hselect : staged.description.select ⟨6, 1, 0⟩ = .ok stagedDescriptor.variant := by
      decide +kernel
    have hselect' : narrowed.select ⟨6, 1, 0⟩ = .ok ⟨"new", narrowedSpec⟩ := by decide +kernel
    have hclosed : closed ∈ staged.description.targets := by decide
    have hclosed' : narrowedClosed ∈ narrowed.targets := by decide
    have hbase := PackageDescription.declares_iff (by decide) hselect hclosed pattern
    have hmore := PackageDescription.declares_iff (by decide) hselect' hclosed' pattern
    have hnone : (closed.extended stagedDescriptor.variant.spec.extraExclude.entries).exclude =
        [] := rfl
    have hall : (narrowedClosed.extended
        narrowedSpec.extraExclude.entries).exclude = ["docs", "in/private.h"] := by decide +kernel
    rw [hnone] at hbase
    rw [hall] at hmore
    exact hmore.trans ⟨.inr, fun h => h.resolve_left fun hdeclared =>
      List.not_mem_nil (hbase.1 hdeclared)⟩

theorem exists_narrowed : ∃ plan,
    narrowed.resolve tree ⟨"."⟩ Descriptor.reversed ⟨6, 1, 0⟩ (some ⟨.macos, ⟨13, 0, 0⟩⟩) =
      .ok plan ∧ plan.Made narrowedGraph tree ⟨"."⟩ := by
  have hdescriptor : narrowed.descriptorFor ⟨6, 1, 0⟩ = .ok narrowedDescriptor := by
    decide +kernel
  have hplatform : narrowedDescriptor.checkPlatform (some ⟨.macos, ⟨13, 0, 0⟩⟩) = .ok () := by
    decide +kernel
  have hall : ∀ target ∈ narrowedGraph.targets, ∃ set,
      SourceSet.resolve tree ⟨"."⟩ target = .ok set := by
    intro target htarget
    simp only [narrowedGraph, List.mem_cons, List.not_mem_nil, or_false] at htarget
    rcases htarget with rfl | rfl | rfl
    · exact ⟨appSet, resolve_app⟩
    · exact ⟨_, resolve_narrowed_closed⟩
    · exact ⟨openedSet, resolve_opened⟩
  exact PackageDescription.exists_resolve hdescriptor hplatform narrowedDescriptor_graph hall

end Commons

/-! ## The main statement -/

namespace PackageDescription

/-- Patterns that are added for one target, in its own list or by the chosen variant, change
    nothing of a plan but the files and the public headers of that target, of which they take out
    those that they match, and the public headers of products. -/
theorem resolve_scoped {base more : PackageDescription} {toolsVersion : Version}
    (hadds : base.AddsExclusions owner added toolsVersion more) {tree : Tree} {root : Path}
    {schedule schedule' : Schedule} {platform : Option Platform} {plan plan' : Plan}
    (h : base.resolve tree root schedule toolsVersion platform = .ok plan)
    (h' : more.resolve tree root schedule' toolsVersion platform = .ok plan') :
    plan.NarrowedBy owner added plan' := by
  obtain ⟨descriptor, graph, hdescriptor, -, hgraph, hplan⟩ := resolve_eq_ok.1 h
  obtain ⟨descriptor', graph', hdescriptor', -, hgraph', hplan'⟩ := resolve_eq_ok.1 h'
  have hnodup : (Target.names base.targets).Nodup := by
    obtain ⟨_, -, hmaterialize⟩ := descriptorFor_eq_ok hdescriptor
    obtain ⟨htargets, -⟩ := Descriptor.graph_eq_ok.1 hgraph
    rw [← materialize_names hmaterialize, ← htargets]
    exact graph.distinct
  exact Descriptor.plan_narrowed (descriptorFor_gains hadds hnodup hdescriptor hdescriptor') hgraph
    hgraph' hplan hplan'

/-- The header that is taken out of the first library is still offered by the second. -/
theorem resolve_scoped_commons : ∃ plan plan',
    Commons.staged.description.resolve Commons.tree ⟨"."⟩ .sequential ⟨6, 1, 0⟩
      (some ⟨.macos, ⟨13, 0, 0⟩⟩) = .ok plan ∧
    Commons.narrowed.resolve Commons.tree ⟨"."⟩ Descriptor.reversed ⟨6, 1, 0⟩
      (some ⟨.macos, ⟨13, 0, 0⟩⟩) = .ok plan' ∧
    plan.NarrowedBy "closed" ["docs", "in/private.h"] plan' ∧
    (∃ planned ∈ plan'.targets, planned.name = "closed" ∧ planned.sources.files = [⟨"in/x.c"⟩]) ∧
    ∃ planned ∈ plan'.targets, planned.name = "open" ∧
      planned.sources.publicHeaders = [⟨"in/private.h"⟩] := by
  obtain ⟨plan, hplan⟩ := Commons.exists_staged
  obtain ⟨plan', hplan', hmade⟩ := Commons.exists_narrowed
  obtain ⟨closed, hclosed, hclosedName, hclosedSet, -⟩ :=
    hmade.exists_planned (by decide) Commons.resolve_narrowed_closed
  obtain ⟨opened, hopened, hopenedName, hopenedSet, -⟩ :=
    hmade.exists_planned (by decide) Commons.resolve_opened
  exact ⟨plan, plan', hplan, hplan', resolve_scoped Commons.narrowed_addsExclusions hplan hplan',
    ⟨closed, hclosed, hclosedName, by rw [hclosedSet]⟩,
    opened, hopened, hopenedName, by rw [hopenedSet]; rfl⟩

end PackageDescription

end PackagePlan
