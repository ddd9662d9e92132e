/-
  Packages that spell the paths of their targets in other ways. Two such descriptions are resolved
  side by side: the variant reaches the same targets, the graphs have the same edges and the same
  source roots, and each target registers the same headers, so that the plans differ in nothing but
  the spelling of the target directories. Main statement: `resolve_respelled`. A target directory
  is looked up as it is written, so that a spelling may be too long for it (`Target.Fits`).
-/
import PackagePlan.Proofs.Description.Spelling
import PackagePlan.Proofs.Graph.Edges
import PackagePlan.Proofs.Plan.Making

namespace PackagePlan

open PackagePlan.Path

/-! ## The graphs -/

namespace Graph

variable {graph other : Graph}

theorem firstProductFault?_congr (h : other.declares = graph.declares) {seen : List String}
    {products : List Product} :
    other.firstProductFault? seen products = graph.firstProductFault? seen products := by
  induction products generalizing seen with
  | nil => rfl
  | cons product rest ih => rw [firstProductFault?, firstProductFault?, h, ih]

theorem sameEdges_of_respells {targets others : List Target}
    (h : List.Forall₂ Target.Respells targets others) : SameEdges targets others :=
  sameEdges_of_forall₂ Target.Respells.edges h

section
variable (hspelled : List.Forall₂ Target.Respells graph.targets other.targets)
include hspelled

theorem check_respelled (h : graph.check = .ok ()) : other.check = .ok () := by
  rw [check_eq_ok_iff, ← exists_buildOrder_iff] at h ⊢
  rwa [← buildOrder_congr (sameEdges_of_respells hspelled)]

theorem checkProducts_respelled {products : List Product}
    (h : graph.checkProducts products = .ok ()) : other.checkProducts products = .ok () := by
  have hdeclares : other.declares = graph.declares := by
    funext name
    rw [Bool.eq_iff_iff, declares_iff, declares_iff]
    unfold Graph.names
    rw [(sameEdges_of_respells hspelled).names]
  unfold checkProducts at h ⊢
  rwa [firstProductFault?_congr hdeclares]

theorem checkRoots_respelled (h : graph.checkRoots = .ok ()) : other.checkRoots = .ok () := by
  rw [checkRoots_eq_ok_iff] at h ⊢
  have hback : ∀ target' ∈ other.targets, ∃ target ∈ graph.targets, target.Respells target' := by
    intro target' htarget'
    exact Outcome.exists_of_mem_forall₂ hspelled.flip htarget'
  intro a' ha' b' hb' hne x hx y hy
  obtain ⟨a, ha, hsameA⟩ := hback a' ha'
  obtain ⟨b, hb, hsameB⟩ := hback b' hb'
  rw [hsameA.name, hsameB.name] at hne
  rw [hsameA.rootSteps] at hx
  rw [hsameB.rootSteps] at hy
  exact h a ha b hb hne x hx y hy

end

end Graph

theorem Descriptor.graph_respelled {descriptor descriptor' : Descriptor}
    (h : descriptor.Respells descriptor') {graph : Graph} (hgraph : descriptor.graph = .ok graph) :
    ∃ graph', descriptor'.graph = .ok graph' ∧
      List.Forall₂ Target.Respells graph.targets graph'.targets := by
  obtain ⟨htargets, hcheck, hproducts, hroots⟩ := graph_eq_ok.1 hgraph
  have hspelled := h.targets
  rw [← htargets] at hspelled
  have hvalid : ∀ target ∈ descriptor'.targets, target.isValid = true := by
    intro target htarget
    obtain ⟨declared, hdeclared, hsame⟩ := Outcome.exists_of_mem_forall₂ hspelled.flip htarget
    exact hsame.isValid (graph.valid declared hdeclared)
  have hnames : Target.names descriptor'.targets = Target.names graph.targets :=
    (Graph.sameEdges_of_respells hspelled).names.symm
  have hproducts' : descriptor'.products = descriptor.products := by rw [h.record]
  refine ⟨⟨descriptor'.targets, hvalid, hnames ▸ graph.distinct⟩, ?_, hspelled⟩
  refine graph_eq_ok.2 ⟨rfl, Graph.check_respelled hspelled hcheck, ?_,
    Graph.checkRoots_respelled hspelled hroots⟩
  rw [hproducts']
  exact Graph.checkProducts_respelled hspelled hproducts

/-! ## Headers -/

namespace HeaderSurface

variable {base other : Target} {set set' : SourceSet}

theorem fileOf_respelled (h : set.Respells set') : fileOf set' = fileOf set := by
  funext header
  unfold fileOf
  rw [h.record]
  dsimp only
  cases set.publicDir with
  | none => rfl
  | some dir => dsimp only; rw [relativeTo?_congr (same_iff.1 h.root)]

/-- Respelled targets register the same headers and search the same directories. -/
theorem of_respelled (hspelled : base.Respells other) (hvalid : base.isValid = true)
    (h : set.Respells set') (hroot : set.root.text ≠ "") (hroot' : set'.root.text ≠ "")
    (closure : List String) : of other set' closure = of base set closure := by
  have hsearch : ∀ path ∈ base.privateSearchPaths,
      (set'.root.join path).normalize = (set.root.join path).normalize := by
    intro path hpath
    obtain ⟨declared, hdeclared, rfl⟩ := List.mem_map.1 hpath
    have hcontained := base.isContained_of_mem_searchPaths hvalid hdeclared
    have hrelative : declared.normalize.isAbsolute = false := by
      rw [normalize_eq (isAbsolute_of_isContained hcontained)]
      exact isAbsolute_ofComponents fun _ => isStep_of_mem_inner
    have hsame : (set.root.join declared.normalize).Respells
        (set'.root.join declared.normalize) := by
      unfold Path.Respells undotted
      rw [components_join hroot hrelative, components_join hroot' hrelative, same_iff.1 h.root]
    exact normalize_congr hsame
  unfold of
  dsimp only
  rw [hspelled.privateSearchPaths, fileOf_respelled h, List.map_congr_left hsearch]
  rw [h.record]
  rfl

end HeaderSurface

/-! ## The plans -/

/-- The same planned target, with its directory under another spelling. -/
structure PlannedTarget.Respells (base other : PlannedTarget) : Prop where
  record : other = { base with sources := other.sources }
  sources : base.sources.Respells other.sources

/-- The same plan, with the target directories under other spellings. -/
structure Plan.Respells (base other : Plan) : Prop where
  /-- The orders, the products, the sizes and the index of headers are the same. -/
  record : other = { base with targets := other.targets }
  targets : List.Forall₂ PlannedTarget.Respells base.targets other.targets
  includes : ∀ target header, other.resolveInclude target header = base.resolveInclude target header
  fingerprint : other.fingerprint = base.fingerprint

namespace PlannedTarget

variable {base other : PlannedTarget}

theorem Respells.name (h : base.Respells other) : other.name = base.name := by rw [h.record]

theorem Respells.publicHeaders (h : base.Respells other) :
    other.publicHeaders = base.publicHeaders := by
  unfold PlannedTarget.publicHeaders
  rw [h.sources.record]

theorem Respells.bytes (h : base.Respells other) : other.bytes = base.bytes := by
  unfold PlannedTarget.bytes
  rw [h.record, h.sources.record]

end PlannedTarget

section
variable {targets targets' : List PlannedTarget}
  (h : List.Forall₂ PlannedTarget.Respells targets targets')
include h

theorem fingerprint_respelled (variant : String) :
    fingerprint variant targets' = fingerprint variant targets := by
  have hbytes : targets.map PlannedTarget.bytes = targets'.map PlannedTarget.bytes :=
    Outcome.map_eq_of_forall₂ h fun _ _ hsame => hsame.bytes.symm
  unfold fingerprint fingerprintBytes
  rw [List.flatMap_def, List.flatMap_def, hbytes]

theorem stats_respelled (waves : List (List String)) :
    PlanStats.of targets' waves = PlanStats.of targets waves := by
  have hcounts : ∀ count : SourceSet → Nat,
      (∀ {set set' : SourceSet}, set.Respells set' → count set' = count set) →
      (targets.map fun target => count target.sources) =
        targets'.map fun target => count target.sources := by
    intro count hcount
    exact Outcome.map_eq_of_forall₂ h fun _ _ hsame => (hcount hsame.sources).symm
  unfold PlanStats.of
  rw [hcounts SourceSet.size fun hset => by rw [hset.record]; rfl,
    hcounts (·.units.length) fun hset => by rw [hset.record]; rfl, h.length_eq]

end

namespace Graph

variable {graph other : Graph} {tree : Tree} {root : Path}

section
variable (hspelled : List.Forall₂ Target.Respells graph.targets other.targets)
include hspelled

/-- What is resolved under one name in both graphs. -/
theorem respells_of_lookup (hroot : root.text ≠ "") {schedule schedule' : Schedule}
    {waves waves' : List (List String)} {sources sources' : List (String × SourceSet)}
    (h : graph.allSources tree root schedule waves = .ok sources)
    (h' : other.allSources tree root schedule' waves' = .ok sources') {name : String}
    {set set' : SourceSet} (hset : sources.lookup name = some set)
    (hset' : sources'.lookup name = some set') :
    set.Respells set' ∧ set.root.text ≠ "" ∧ set'.root.text ≠ "" := by
  obtain ⟨target, htarget, hresolved⟩ := resolve_of_lookup h hset
  obtain ⟨target', htarget', hresolved'⟩ := resolve_of_lookup h' hset'
  have hsame := rel_of_target? Target.Respells.edges hspelled htarget htarget'
  have hvalid := graph.valid target (target?_eq_some_iff.1 htarget).1
  obtain ⟨found, hfound, hrespelled⟩ := SourceSet.exists_resolve_respelled hsame hvalid hroot
    (SourceSet.fits_of_resolve hresolved') hresolved
  obtain rfl := Except.ok.inj (hfound.symm.trans hresolved')
  exact ⟨hrespelled, SourceSet.root_ne_empty_of_resolve hvalid hresolved,
    SourceSet.root_ne_empty_of_resolve (hsame.isValid hvalid) hresolved'⟩

/-- Two runs of planning over the same names fill one index, and plan the same targets. -/
theorem planTargets_respelled {standard : Option LanguageStandard}
    {sources sources' : List (String × SourceSet)}
    (hsources : ∀ name set set', sources.lookup name = some set →
      sources'.lookup name = some set' →
        set.Respells set' ∧ set.root.text ≠ "" ∧ set'.root.text ≠ "")
    {index full full' : HeaderIndex} {names : List String} {planned planned' : List PlannedTarget}
    (h : graph.planTargets standard sources index names = .ok (full, planned))
    (h' : other.planTargets standard sources' index names = .ok (full', planned')) :
    full' = full ∧ List.Forall₂ PlannedTarget.Respells planned planned' := by
  induction names generalizing index planned planned' with
  | nil =>
    obtain ⟨rfl, rfl⟩ := Prod.mk.inj (Except.ok.inj h)
    obtain ⟨rfl, rfl⟩ := Prod.mk.inj (Except.ok.inj h')
    exact ⟨rfl, .nil⟩
  | cons name rest ih =>
    obtain ⟨target, set, closure, dirs, others, htarget, hset, hclosure, hdirs, hothers, rfl⟩ :=
      planTargets_cons_ok h
    obtain ⟨target', set', closure', dirs', others', htarget', hset', hclosure', hdirs', hothers',
      rfl⟩ := planTargets_cons_ok h'
    have hsame := rel_of_target? Target.Respells.edges hspelled htarget htarget'
    have hvalid := graph.valid target (target?_eq_some_iff.1 htarget).1
    obtain ⟨hsets, hroot, hroot'⟩ := hsources name set set' hset hset'
    rw [← closure_congr (sameEdges_of_respells hspelled), hclosure] at hclosure'
    obtain rfl := Except.ok.inj hclosure'
    have hregister : index.register target' set' closure = index.register target set closure := by
      unfold HeaderIndex.register
      rw [hsame.name, HeaderSurface.of_respelled hsame hvalid hsets hroot hroot']
    rw [hregister] at hdirs' hothers'
    obtain rfl := Except.ok.inj (hdirs.symm.trans hdirs')
    obtain ⟨hfull, hall⟩ := ih hothers hothers'
    refine ⟨hfull, .cons ⟨?_, hsets⟩ hall⟩
    rw [hsame.record]
    rfl

/-- A product is planned alike from both. -/
theorem planProduct_respelled {order : List String} {targets targets' : List PlannedTarget}
    (h : List.Forall₂ PlannedTarget.Respells targets targets') (product : Product) :
    other.planProduct order targets' product = graph.planProduct order targets product := by
  have hheaders : ∀ closure : List String,
      (targets'.filter fun target => decide (target.name ∈ closure)).flatMap
          PlannedTarget.publicHeaders =
        (targets.filter fun target => decide (target.name ∈ closure)).flatMap
          PlannedTarget.publicHeaders := by
    intro closure
    induction h with
    | nil => rfl
    | cons hhead _ ih =>
      rw [List.filter_cons, List.filter_cons, hhead.name]
      split
      · rw [List.flatMap_cons, List.flatMap_cons, hhead.publicHeaders, ih]
      · exact ih
  unfold planProduct
  rw [closure_congr (sameEdges_of_respells hspelled)]
  simp only [hheaders]

end

end Graph

theorem Descriptor.plan_respelled {descriptor descriptor' : Descriptor}
    (hspelled : descriptor.Respells descriptor') {graph graph' : Graph}
    (hgraph : List.Forall₂ Target.Respells graph.targets graph'.targets) {tree : Tree}
    {root : Path} (hroot : root.text ≠ "") {schedule schedule' : Schedule} {toolsVersion : Version}
    {platform : Option Platform} {plan plan' : Plan}
    (h : descriptor.plan graph tree root schedule toolsVersion platform = .ok plan)
    (h' : descriptor'.plan graph' tree root schedule' toolsVersion platform = .ok plan') :
    plan.Respells plan' := by
  have hedges := Graph.sameEdges_of_respells hgraph
  obtain ⟨order, waves, sources, headers, targets, products, horder, hwaves, hsources, hplanned,
    hmade, rfl⟩ := plan_eq_ok h
  obtain ⟨order', waves', sources', headers', targets', products', horder', hwaves', hsources',
    hplanned', hmade', rfl⟩ := plan_eq_ok h'
  obtain rfl := Except.ok.inj (horder.symm.trans ((Graph.buildOrder_congr hedges).trans horder'))
  obtain rfl := Except.ok.inj (hwaves.symm.trans ((Graph.waves_congr hedges).trans hwaves'))
  have hstandard : descriptor'.cLanguageStandard = descriptor.cLanguageStandard := by
    rw [hspelled.record]
  have hproducts : descriptor'.products = descriptor.products := by rw [hspelled.record]
  rw [hstandard] at hplanned'
  obtain ⟨rfl, htargets⟩ := Graph.planTargets_respelled hgraph
    (fun _ _ _ => Graph.respells_of_lookup hgraph hroot hsources hsources') hplanned hplanned'
  have hsame : graph'.planProduct order targets' = graph.planProduct order targets :=
    funext fun product => Graph.planProduct_respelled hgraph htargets product
  rw [hproducts, hsame] at hmade'
  obtain rfl := Except.ok.inj (hmade.symm.trans hmade')
  have hvariant : descriptor'.variant = descriptor.variant := by rw [hspelled.record]
  have hpackage : descriptor'.package = descriptor.package := by rw [hspelled.record]
  exact
    { record := by
        dsimp only
        rw [hstandard, hvariant, hpackage, stats_respelled htargets]
      targets := htargets
      includes := fun _ _ => rfl
      fingerprint := by
        unfold Plan.fingerprint
        dsimp only
        rw [hvariant, fingerprint_respelled htargets] }

/-! ## The resolutions -/

/-- The directories of all targets are written short enough to be looked up. -/
def PackageDescription.Fits (root : Path) (description : PackageDescription) : Prop :=
  ∀ target ∈ description.targets, target.Fits root

namespace PackageDescription

variable {description base other : PackageDescription} {tree : Tree} {root : Path}
  {schedule : Schedule} {toolsVersion : Version} {platform : Option Platform}

/-- The directories of a descriptor are those of the description. -/
theorem fits_iff_of_descriptorFor {descriptor : Descriptor}
    (h : description.descriptorFor toolsVersion = .ok descriptor) :
    description.Fits root ↔ ∀ target ∈ descriptor.targets, target.Fits root := by
  obtain ⟨variant, -, hmaterialize⟩ := descriptorFor_eq_ok h
  have hpaths : ∀ targets : List Target, (∀ target ∈ targets, target.Fits root) ↔
      ∀ path ∈ targets.map Target.path,
        (root.join path).text.utf8ByteSize ≤ Tree.pathLimit := by
    intro targets
    rw [List.forall_mem_map]
    rfl
  unfold Fits
  rw [hpaths, hpaths, materialize_map Target.path (fun _ _ => rfl) hmaterialize]

theorem fits_of_resolve {plan : Plan}
    (h : description.resolve tree root schedule toolsVersion platform = .ok plan) :
    description.Fits root := by
  obtain ⟨descriptor, graph, hdescriptor, -, hgraph, hplan⟩ := resolve_eq_ok.1 h
  obtain ⟨htargets, -⟩ := Descriptor.graph_eq_ok.1 hgraph
  rw [fits_iff_of_descriptorFor hdescriptor, ← htargets]
  intro target htarget
  obtain ⟨set, hset⟩ := (Descriptor.plan_made hplan).exists_resolve htarget
  exact SourceSet.fits_of_resolve hset

/-- Where one spelling resolves, every other one that fits does. -/
theorem exists_plan_respelled (h : base.Respells other) (hroot : root.text ≠ "")
    (hfits : other.Fits root) {plan : Plan}
    (hplan : base.resolve tree root schedule toolsVersion platform = .ok plan) :
    ∃ plan', other.resolve tree root schedule toolsVersion platform = .ok plan' := by
  obtain ⟨descriptor, graph, hdescriptor, hplatform, hgraph, hplan⟩ := resolve_eq_ok.1 hplan
  obtain ⟨descriptor', hdescriptor', hspelled⟩ := descriptorFor_respelled h hdescriptor
  obtain ⟨graph', hgraph', htargets⟩ := Descriptor.graph_respelled hspelled hgraph
  have hplatform' : descriptor'.checkPlatform platform = .ok () := by
    rw [hspelled.record]
    exact hplatform
  have hall : ∀ target' ∈ graph'.targets, ∃ set',
      SourceSet.resolve tree root target' = .ok set' := by
    intro target' htarget'
    obtain ⟨target, htarget, hsame⟩ := Outcome.exists_of_mem_forall₂ htargets.flip htarget'
    obtain ⟨set, hset⟩ := (Descriptor.plan_made hplan).exists_resolve htarget
    have hfits' : target'.Fits root := by
      rw [(Descriptor.graph_eq_ok.1 hgraph').1] at htarget'
      exact (fits_iff_of_descriptorFor hdescriptor').1 hfits target' htarget'
    obtain ⟨set', hset', -⟩ := SourceSet.exists_resolve_respelled hsame
      (graph.valid target htarget) hroot hfits' hset
    exact ⟨set', hset'⟩
  obtain ⟨plan', hplan', -⟩ := exists_resolve hdescriptor' hplatform' hgraph' hall
  exact ⟨plan', hplan'⟩

/-! ## The main statement -/

/-- Below a package root that is not empty, the spelling of the paths that targets declare makes no
difference to a plan, but for the text of the target directories, and none to whether there is a
plan, but where a target directory is written too long to be looked up. -/
theorem resolve_respelled (h : base.Respells other) (hroot : root.text ≠ "") :
    ((∃ plan, base.resolve tree root schedule toolsVersion platform = .ok plan) ∧
        other.Fits root ↔
      (∃ plan', other.resolve tree root schedule toolsVersion platform = .ok plan') ∧
        base.Fits root) ∧
    ∀ plan plan', base.resolve tree root schedule toolsVersion platform = .ok plan →
      other.resolve tree root schedule toolsVersion platform = .ok plan' →
        plan.Respells plan' := by
  constructor
  · constructor
    · rintro ⟨⟨plan, hplan⟩, hfits⟩
      exact ⟨exists_plan_respelled h hroot hfits hplan, fits_of_resolve hplan⟩
    · rintro ⟨⟨plan', hplan'⟩, hfits⟩
      exact ⟨exists_plan_respelled h.symm hroot hfits hplan', fits_of_resolve hplan'⟩
  · intro plan plan' hplan hplan'
    obtain ⟨descriptor, graph, hdescriptor, -, hgraph, hplan⟩ := resolve_eq_ok.1 hplan
    obtain ⟨descriptor', graph', hdescriptor', -, hgraph', hplan'⟩ := resolve_eq_ok.1 hplan'
    obtain ⟨found, hfound, hspelled⟩ := descriptorFor_respelled h hdescriptor
    obtain rfl := Except.ok.inj (hfound.symm.trans hdescriptor')
    have htargets : List.Forall₂ Target.Respells graph.targets graph'.targets := by
      rw [(Descriptor.graph_eq_ok.1 hgraph).1, (Descriptor.graph_eq_ok.1 hgraph').1]
      exact hspelled.targets
    exact Descriptor.plan_respelled hspelled htargets hroot hplan hplan'

end PackageDescription

/-! ## One library in several spellings -/

namespace Core

def target : Target :=
  { name := "core"
    path := ⟨"src"⟩
    sources := [⟨"lib"⟩]
    publicHeaders := some ⟨"include"⟩
    headerSearchPaths := [⟨"include"⟩] }

def tree : Tree :=
  { root := .directory [("src", .directory [
      ("include", .directory [("core.h", .file "")]),
      ("lib", .directory [("a.c", .file "")])])] }

def description : PackageDescription := { name := "core", targets := [target] }

/-- Each path in another spelling. -/
def dotted : PackageDescription :=
  { description with
    targets := [{ target with
      path := ⟨"./src//."⟩
      sources := [⟨"./lib/"⟩]
      publicHeaders := some ⟨"include/."⟩
      headerSearchPaths := [⟨".//include"⟩] }] }

/-- The target directory behind so many `.` components. -/
def behind : Nat → Path
  | 0 => target.path
  | dots + 1 => (⟨"."⟩ : Path).join (behind dots)

def stretched (dots : Nat) : PackageDescription :=
  { description with targets := [{ target with path := behind dots }] }

theorem respells_dotted : description.Respells dotted where
  record := rfl
  targets := .cons
    { record := rfl
      path := by unfold Path.Respells; decide +kernel
      sources := .cons (by unfold Path.Respells; decide +kernel) .nil
      publicHeaders := .some (by unfold Path.Respells; decide +kernel)
      headerSearchPaths := .cons (by unfold Path.Respells; decide +kernel) .nil } .nil

theorem isAbsolute_behind (dots : Nat) : (behind dots).isAbsolute = false := by
  induction dots with
  | zero => decide +kernel
  | succ dots ih =>
    rw [behind, isAbsolute_join (by decide) ih]
    decide +kernel

theorem undotted_behind (dots : Nat) : (behind dots).undotted = target.path.undotted := by
  induction dots with
  | zero => rfl
  | succ dots ih =>
    have hrelative := isAbsolute_behind dots
    have hinner : (⟨"."⟩ : Path).inner = [] := by decide +kernel
    have hbelow : (behind (dots + 1)).undotted = (behind (dots + 1)).inner :=
      filter_components (isAbsolute_behind (dots + 1))
    rw [hbelow, behind, inner_join (by decide) hrelative, hinner, List.nil_append, ← ih]
    exact (filter_components hrelative).symm

/-- Every `.` takes two bytes. -/
theorem size_behind (dots : Nat) : (behind dots).text.utf8ByteSize = 2 * dots + 3 := by
  induction dots with
  | zero => decide +kernel
  | succ dots ih =>
    have hglue : (⟨"."⟩ : Path).glue = "/" := by decide +kernel
    have hdot : ".".utf8ByteSize = 1 := by decide +kernel
    have hslash : "/".utf8ByteSize = 1 := by decide +kernel
    rw [behind, text_join (isAbsolute_behind dots), hglue, String.utf8ByteSize_append,
      String.utf8ByteSize_append, ih, hdot, hslash]
    omega

theorem respells_stretched (dots : Nat) : description.Respells (stretched dots) where
  record := rfl
  targets := .cons
    { record := rfl
      path := undotted_behind dots
      sources := .cons rfl .nil
      publicHeaders := .some rfl
      headerSearchPaths := .cons rfl .nil } .nil

def graph : Graph := ⟨[target], by decide +kernel, by decide⟩

def descriptor : Descriptor :=
  { package := "core"
    variant := .implicit
    cLanguageStandard := none
    targets := graph.targets
    products := [] }

theorem descriptor_graph : descriptor.graph = .ok graph :=
  Descriptor.graph_eq_ok.2 ⟨rfl, by cbv, rfl, by decide +kernel⟩

theorem exists_made : ∃ plan,
    description.resolve tree ⟨"."⟩ .sequential ⟨1, 0, 0⟩ none = .ok plan ∧
      plan.Made graph tree ⟨"."⟩ := by
  have hdescriptor : description.descriptorFor ⟨1, 0, 0⟩ = .ok descriptor := rfl
  have hplatform : descriptor.checkPlatform none = .ok () := rfl
  have hall : ∀ declared ∈ graph.targets, ∃ set,
      SourceSet.resolve tree ⟨"."⟩ declared = .ok set := by
    intro declared hdeclared
    obtain rfl := List.mem_singleton.1 hdeclared
    exact Outcome.isOk_iff.1 (by decide +kernel)
  exact PackageDescription.exists_resolve hdescriptor hplatform descriptor_graph hall

theorem exists_plan : ∃ plan,
    description.resolve tree ⟨"."⟩ .sequential ⟨1, 0, 0⟩ none = .ok plan := by
  obtain ⟨plan, hplan, -⟩ := exists_made
  exact ⟨plan, hplan⟩

/-- A spelling that is too long to be looked up leaves no plan. -/
theorem stretched_unresolved :
    description.Respells (stretched 2050) ∧
      (∃ plan, description.resolve tree ⟨"."⟩ .sequential ⟨1, 0, 0⟩ none = .ok plan) ∧
      ∀ plan, (stretched 2050).resolve tree ⟨"."⟩ .sequential ⟨1, 0, 0⟩ none ≠ .ok plan := by
  refine ⟨respells_stretched 2050, exists_plan, fun plan hplan => ?_⟩
  have hfits := PackageDescription.fits_of_resolve hplan _ List.mem_cons_self
  have hsize : ((⟨"."⟩ : Path).join (behind 2050)).text.utf8ByteSize = 4105 := size_behind 2051
  unfold Target.Fits Tree.pathLimit at hfits
  dsimp only at hfits
  omega

end Core

namespace PackageDescription

/-- A library of which every path has got dots. -/
theorem resolve_respelled_core : ∃ plan plan',
    Core.description.resolve Core.tree ⟨"."⟩ .sequential ⟨1, 0, 0⟩ none = .ok plan ∧
    Core.dotted.resolve Core.tree ⟨"."⟩ .sequential ⟨1, 0, 0⟩ none = .ok plan' ∧
    plan.Respells plan' := by
  have hroot : (⟨"."⟩ : Path).text ≠ "" := by decide
  have hfits : Core.dotted.Fits ⟨"."⟩ := by
    unfold Fits Target.Fits
    decide +kernel
  obtain ⟨plan, hplan⟩ := Core.exists_plan
  obtain ⟨hresolves, hsame⟩ := resolve_respelled Core.respells_dotted hroot
  obtain ⟨⟨plan', hplan'⟩, -⟩ := hresolves.1 ⟨⟨plan, hplan⟩, hfits⟩
  exact ⟨plan, plan', hplan, hplan', hsame plan plan' hplan hplan'⟩

end PackageDescription

end PackagePlan
