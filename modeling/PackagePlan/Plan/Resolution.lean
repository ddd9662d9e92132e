/-
  From a description to a plan. A variant is chosen and applied, the platform is checked, the
  graph is made and checked, the source sets are resolved wave by wave, and the targets are
  planned in build order. The first failure ends the resolution.
-/
import PackagePlan.Graph.Closure
import PackagePlan.Graph.Roots
import PackagePlan.Graph.Waves
import PackagePlan.Plan.Basic

namespace PackagePlan

/-- Refuse a platform that a variant does not support, and the lack of one where it has minimums. -/
def Descriptor.checkPlatform (descriptor : Descriptor) :
    Option Platform → Except BuildError Unit
  | some platform => descriptor.platforms.check platform
  | none =>
    if descriptor.platforms.isEmpty then .ok ()
    else .error (.platformUnspecified descriptor.variant.name descriptor.platforms.toList)

/-- The graph of a descriptor, with its dependencies, products and source roots checked. -/
def Descriptor.graph (descriptor : Descriptor) : Except BuildError Graph := do
  let graph ← Graph.ofTargets descriptor.targets
  graph.check
  graph.checkProducts descriptor.products
  graph.checkRoots
  return graph

/-- The order in which the members of a wave are taken: each of them, once. -/
structure Schedule where
  arrange : List String → List String
  arrange_perm : ∀ wave, (arrange wave).Perm wave

/-- The members of a wave one after the other, as declared. -/
def Schedule.sequential : Schedule := ⟨id, fun wave => .refl wave⟩

namespace Graph

/-- The target of a name that has to be declared. -/
def require (graph : Graph) (name : String) : Except BuildError Target :=
  match graph.target? name with
  | some target => .ok target
  | none => .error (.targetNotFound name)

/-- The source set of a target of the graph, under its name. -/
def sourcesOf (graph : Graph) (tree : Tree) (root : Path) (name : String) :
    Except BuildError (String × SourceSet) := do
  let target ← graph.require name
  let sources ← SourceSet.resolve tree root target
  return (sources.target, sources)

/-- The source sets of the members of a wave. -/
def waveSources (graph : Graph) (tree : Tree) (root : Path) (names : List String) :
    Except BuildError (List (String × SourceSet)) :=
  names.mapM (graph.sourcesOf tree root)

/-- The source sets of all waves. A wave is only begun when those before it have been resolved. -/
def allSources (graph : Graph) (tree : Tree) (root : Path) (schedule : Schedule)
    (waves : List (List String)) : Except BuildError (List (String × SourceSet)) :=
  (waves.mapM fun wave => graph.waveSources tree root (schedule.arrange wave)).map List.flatten

/-- Plan targets in the given order. Each is registered before its include directories are asked
for, so that the index holds everything it depends on. -/
def planTargets (graph : Graph) (standard : Option LanguageStandard)
    (sources : List (String × SourceSet)) :
    HeaderIndex → List String → Except BuildError (HeaderIndex × List PlannedTarget)
  | index, [] => .ok (index, [])
  | index, name :: rest => do
    let target ← graph.require name
    match sources.lookup name with
    | none => .error (.targetNotFound name)
    | some set =>
      let closure ← graph.closure name
      let grown := index.register target set closure
      let includeDirs ← grown.includeDirs name
      let (full, planned) ← planTargets graph standard sources grown rest
      return (full, .of target set closure includeDirs standard :: planned)

/-- Plan a product: its closure and the public headers that come with it. -/
def planProduct (graph : Graph) (order : List String) (targets : List PlannedTarget)
    (product : Product) : Except BuildError PlannedProduct := do
  let closures ← product.targets.mapM graph.closure
  let members := product.targets ++ closures.flatten
  let closure := order.filter fun name => decide (name ∈ members)
  let exposed := targets.filter fun target => decide (target.name ∈ closure)
  return {
    name := product.name
    targets := product.targets
    closure
    publicHeaders := Path.sorted (exposed.flatMap PlannedTarget.publicHeaders) }

end Graph

/-- Plan the targets and products of a descriptor whose graph has been checked. -/
def Descriptor.plan (descriptor : Descriptor) (graph : Graph) (tree : Tree) (root : Path)
    (schedule : Schedule) (toolsVersion : Version) (platform : Option Platform) :
    Except BuildError Plan := do
  let buildOrder ← graph.buildOrder
  let waves ← graph.waves
  let sources ← graph.allSources tree root schedule waves
  let (headers, targets) ←
    graph.planTargets descriptor.cLanguageStandard sources {} buildOrder
  let products ← descriptor.products.mapM (graph.planProduct buildOrder targets)
  return {
    package := descriptor.package
    variant := descriptor.variant.name
    toolsVersion
    platform
    cLanguageStandard := descriptor.cLanguageStandard
    buildOrder
    waves
    targets
    products
    stats := .of targets waves
    headers }

/-- Resolve a description into a plan, for a tools version and perhaps a platform, from the files
of a tree. -/
def PackageDescription.resolve (description : PackageDescription) (tree : Tree) (root : Path)
    (schedule : Schedule) (toolsVersion : Version) (platform : Option Platform) :
    Except BuildError Plan := do
  let descriptor ← description.descriptorFor toolsVersion
  descriptor.checkPlatform platform
  let graph ← descriptor.graph
  descriptor.plan graph tree root schedule toolsVersion platform

end PackagePlan
