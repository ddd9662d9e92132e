/-
  A plan agrees with the description it was made from. Whatever the tools version, the platform,
  the tree and the order inside the waves, a resolution never ends in a target that was not found,
  and a plan that it returns lists the declared targets in build order, gives each target and each
  visible product the closure that the declared dependencies call for, exposes the public headers
  of just those targets, and counts what it lists.
-/
import Mathlib.Algebra.GroupWithZero.Nat
import PackagePlan.Proofs.Plan.Stages

namespace PackagePlan

open Target (Needs)

/-- What a plan for a tools version owes to its description. -/
structure Plan.Consistent (description : PackageDescription) (toolsVersion : Version)
    (plan : Plan) : Prop where
  /-- The planned targets stand in build order. -/
  targets_order : plan.targets.map (·.name) = plan.buildOrder
  /-- The build order lists every declared target once. -/
  order_perm : plan.buildOrder.Perm (Target.names description.targets)
  order_nodup : plan.buildOrder.Nodup
  /-- The closure of a planned target is what the target needs. -/
  closure_mem : ∀ target ∈ plan.targets, ∀ name,
    name ∈ target.closure ↔ Needs description.targets target.name name
  /-- The closure is a subsequence of what stands before the target in the build order. -/
  closure_before : ∀ target ∈ plan.targets, ∃ pre post,
    plan.buildOrder = pre ++ target.name :: post ∧ target.closure.Sublist pre
  /-- The planned products are the declared ones that the chosen variant exposes. -/
  products_visible : ∃ variant, description.select toolsVersion = .ok variant ∧
    plan.products.map (fun product => (product.name, product.targets)) =
      (description.products.filter fun product => variant.spec.products.exposes product.name).map
        fun product => (product.name, product.targets)
  /-- The closure of a product is its members and all that they need. -/
  product_closure_mem : ∀ product ∈ plan.products, ∀ name, name ∈ product.closure ↔
    name ∈ product.targets ∨ ∃ member ∈ product.targets, Needs description.targets member name
  product_closure_sublist : ∀ product ∈ plan.products, product.closure.Sublist plan.buildOrder
  /-- The public headers of a product ascend, so that none is listed twice. -/
  product_headers_ascending : ∀ product ∈ plan.products, Path.Ascending product.publicHeaders
  /-- They are the public headers of the targets of its closure, each seen from where the package
      root is seen. -/
  product_headers_mem : ∀ product ∈ plan.products, ∀ path : Path,
    path.memOf product.publicHeaders = true ↔
      ∃ target ∈ plan.targets, target.name ∈ product.closure ∧
        ∃ dir, target.sources.publicDir = some dir ∧
          ∃ header ∈ target.sources.publicHeaders, path.same (dir.join header) = true
  /-- The waves are those of the graph of the chosen variant. -/
  waves_of_graph : ∃ descriptor graph, description.descriptorFor toolsVersion = .ok descriptor ∧
    descriptor.graph = .ok graph ∧ graph.waves = .ok plan.waves
  total_targets : plan.stats.totalTargets = plan.targets.length
  total_files : plan.stats.totalFiles = (plan.targets.map (·.sources.files.length)).sum
  compile_units : plan.stats.compileUnits =
    (plan.targets.map fun target =>
      (target.sources.files.filter fun file => FileKind.of file == .unit).length).sum
  parallel_groups : plan.stats.parallelGroups = plan.waves.length

/-! ## The planning of a checked descriptor -/

namespace Descriptor

variable {descriptor : Descriptor} {graph : Graph} {tree : Tree} {root : Path}
  {schedule : Schedule} {toolsVersion : Version} {platform : Option Platform}

/-- The graph of a descriptor holds its targets and has passed all checks. -/
theorem graph_eq_ok : descriptor.graph = .ok graph ↔
    graph.targets = descriptor.targets ∧ graph.check = .ok () ∧
      graph.checkProducts descriptor.products = .ok () ∧ graph.checkRoots = .ok () := by
  unfold Descriptor.graph
  constructor
  · intro h
    obtain ⟨graph', hgraph, h⟩ := Outcome.bind_eq_ok.1 h
    obtain ⟨_, hcheck, h⟩ := Outcome.bind_eq_ok.1 h
    obtain ⟨_, hproducts, h⟩ := Outcome.bind_eq_ok.1 h
    obtain ⟨_, hroots, h⟩ := Outcome.bind_eq_ok.1 h
    obtain rfl := Except.ok.inj h
    exact ⟨Graph.targets_of_ofTargets hgraph, hcheck, hproducts, hroots⟩
  · rintro ⟨htargets, hcheck, hproducts, hroots⟩
    rw [Graph.ofTargets_eq_ok_iff.2 htargets, Outcome.ok_bind, hcheck, Outcome.ok_bind, hproducts,
      Outcome.ok_bind, hroots]
    rfl

/-- The steps behind a plan. -/
theorem plan_eq_ok {plan : Plan}
    (h : descriptor.plan graph tree root schedule toolsVersion platform = .ok plan) :
    ∃ order waves sources headers targets products,
      graph.buildOrder = .ok order ∧ graph.waves = .ok waves ∧
      graph.allSources tree root schedule waves = .ok sources ∧
      graph.planTargets descriptor.cLanguageStandard sources {} order = .ok (headers, targets) ∧
      descriptor.products.mapM (graph.planProduct order targets) = .ok products ∧
      plan = {
        package := descriptor.package
        variant := descriptor.variant.name
        toolsVersion
        platform
        cLanguageStandard := descriptor.cLanguageStandard
        buildOrder := order
        waves
        targets
        products
        stats := .of targets waves
        headers } := by
  unfold Descriptor.plan at h
  obtain ⟨order, horder, h⟩ := Outcome.bind_eq_ok.1 h
  obtain ⟨waves, hwaves, h⟩ := Outcome.bind_eq_ok.1 h
  obtain ⟨sources, hsources, h⟩ := Outcome.bind_eq_ok.1 h
  obtain ⟨⟨headers, targets⟩, htargets, h⟩ := Outcome.bind_eq_ok.1 h
  obtain ⟨products, hproducts, h⟩ := Outcome.bind_eq_ok.1 h
  exact ⟨order, waves, sources, headers, targets, products, horder, hwaves, hsources, htargets,
    hproducts, (Except.ok.inj h).symm⟩

/-- All waves together name the targets of the build order. -/
theorem isSome_lookup_sources {waves : List (List String)} {sources : List (String × SourceSet)}
    (hwaves : graph.waves = .ok waves)
    (hsources : graph.allSources tree root schedule waves = .ok sources) {name : String}
    (h : name ∈ graph.names) : (sources.lookup name).isSome = true := by
  have hkeys : name ∈ sources.map (·.1) := by
    rw [Graph.allSources_keys hsources, Graph.mem_arranged]
    exact (Graph.flatten_waves_perm hwaves).mem_iff.2 h
  obtain ⟨entry, hentry, rfl⟩ := List.mem_map.1 hkeys
  exact List.lookup_isSome_iff.2 ⟨entry, hentry, by simp⟩

/-- A checked graph can be planned as soon as its source sets are there. -/
theorem exists_plan_of_sources {sources : List (String × SourceSet)}
    (hgraph : descriptor.graph = .ok graph)
    (hsources : graph.allSources tree root schedule (Graph.wavesFrom [] graph.targets) =
      .ok sources) :
    ∃ plan, descriptor.plan graph tree root schedule toolsVersion platform = .ok plan := by
  obtain ⟨-, hcheck, hproducts, -⟩ := graph_eq_ok.1 hgraph
  obtain ⟨order, horder⟩ := Graph.exists_buildOrder_iff.2 (Graph.check_eq_ok_iff.1 hcheck)
  have hwaves := Graph.waves_eq_ok.2 ⟨⟨order, horder⟩, rfl⟩
  have hready : ∀ name ∈ order, name ∈ graph.names ∧ (sources.lookup name).isSome = true := by
    intro name hname
    have hdeclared := (Graph.mem_buildOrder_iff horder).1 hname
    exact ⟨hdeclared, isSome_lookup_sources hwaves hsources hdeclared⟩
  obtain ⟨⟨headers, targets⟩, htargets⟩ : ∃ result,
      graph.planTargets descriptor.cLanguageStandard sources {} order = .ok result :=
    Graph.exists_planTargets horder hready {}
  obtain ⟨products, hplanned⟩ := Outcome.exists_mapM_eq_ok fun product hproduct =>
    Graph.exists_planProduct horder targets
      (Graph.checkProducts_eq_ok hproducts product hproduct)
  exact ⟨_, Outcome.bind_eq_ok.2 ⟨order, horder, Outcome.bind_eq_ok.2 ⟨_, hwaves,
    Outcome.bind_eq_ok.2 ⟨sources, hsources, Outcome.bind_eq_ok.2 ⟨(headers, targets), htargets,
      Outcome.bind_eq_ok.2 ⟨products, hplanned, rfl⟩⟩⟩⟩⟩⟩

/-- Once the graph has passed its checks only the files can be amiss. -/
theorem plan_error (hgraph : descriptor.graph = .ok graph) {error : BuildError}
    (h : descriptor.plan graph tree root schedule toolsVersion platform = .error error) :
    SourceSet.Failure error := by
  obtain ⟨-, hcheck, -, -⟩ := graph_eq_ok.1 hgraph
  obtain ⟨order, horder⟩ := Graph.exists_buildOrder_iff.2 (Graph.check_eq_ok_iff.1 hcheck)
  have hwaves := Graph.waves_eq_ok.2 ⟨⟨order, horder⟩, rfl⟩
  have hplan := h
  unfold Descriptor.plan at h
  rcases Outcome.bind_eq_error.1 h with h | ⟨_, -, h⟩
  · rw [horder] at h
    cases h
  rcases Outcome.bind_eq_error.1 h with h | ⟨_, hsame, h⟩
  · rw [hwaves] at h
    cases h
  obtain rfl := Except.ok.inj (hwaves.symm.trans hsame)
  rcases Outcome.bind_eq_error.1 h with h | ⟨sources, hsources, -⟩
  · exact Graph.allSources_error (fun name => (Graph.flatten_waves_perm hwaves).mem_iff.1) h
  · obtain ⟨plan, hmade⟩ : ∃ plan, descriptor.plan graph tree root schedule toolsVersion platform =
        .ok plan := exists_plan_of_sources hgraph hsources
    rw [hplan] at hmade
    cases hmade

theorem finds_plan (hgraph : descriptor.graph = .ok graph) :
    FindsTargets (descriptor.plan graph tree root schedule toolsVersion platform) :=
  .of_fails fun _ h => ⟨.sources, .files (plan_error hgraph h)⟩

end Descriptor

/-! ## Planned targets and products -/

theorem PlannedTarget.mem_publicHeaders {target : PlannedTarget} {path : Path} :
    path ∈ target.publicHeaders ↔ ∃ dir, target.sources.publicDir = some dir ∧
      ∃ header ∈ target.sources.publicHeaders, path = dir.join header := by
  unfold PlannedTarget.publicHeaders
  cases target.sources.publicDir with
  | none => simp
  | some dir => simp [eq_comm]

namespace Graph

variable {graph : Graph} {standard : Option LanguageStandard}
  {sources : List (String × SourceSet)} {order : List String} {targets : List PlannedTarget}

theorem names_of_planned (h : List.Forall₂ (PlannedAs graph sources standard) order targets) :
    targets.map (·.name) = order := by
  induction h with
  | nil => rfl
  | cons hplanned _ ih => rw [List.map_cons, ih, hplanned.name_eq]

/-- A target that was planned was planned under its own name. -/
theorem plannedAs_of_mem (h : List.Forall₂ (PlannedAs graph sources standard) order targets)
    {target : PlannedTarget} (htarget : target ∈ targets) :
    PlannedAs graph sources standard target.name target := by
  induction h with
  | nil => cases htarget
  | cons hplanned _ ih =>
    rcases List.mem_cons.1 htarget with rfl | htarget
    · rwa [hplanned.name_eq]
    · exact ih htarget

/-- The public headers of a planned product are those of the targets in its closure. -/
theorem memOf_productHeaders {closure : List String} {path : Path} :
    path.memOf (Path.sorted ((targets.filter fun target =>
        decide (target.name ∈ closure)).flatMap PlannedTarget.publicHeaders)) = true ↔
      ∃ target ∈ targets, target.name ∈ closure ∧
        ∃ dir, target.sources.publicDir = some dir ∧
          ∃ header ∈ target.sources.publicHeaders, path.same (dir.join header) = true := by
  rw [Path.memOf_sorted, Path.memOf_iff]
  constructor
  · rintro ⟨file, hfile, hcomponents⟩
    obtain ⟨target, htarget, hfile⟩ := List.mem_flatMap.1 hfile
    obtain ⟨htarget, hclosure⟩ := List.mem_filter.1 htarget
    obtain ⟨dir, hdir, header, hheader, rfl⟩ := PlannedTarget.mem_publicHeaders.1 hfile
    exact ⟨target, htarget, by simpa using hclosure, dir, hdir, header, hheader,
      Path.same_iff.2 hcomponents⟩
  · rintro ⟨target, htarget, hclosure, dir, hdir, header, hheader, hsame⟩
    refine ⟨dir.join header, List.mem_flatMap.2 ⟨target, ?_, ?_⟩, Path.same_iff.1 hsame⟩
    · exact List.mem_filter.2 ⟨htarget, by simpa using hclosure⟩
    · exact PlannedTarget.mem_publicHeaders.2 ⟨dir, hdir, header, hheader, rfl⟩

/-- Products that were planned are those asked for, in order. -/
theorem products_of_planned {products : List Product} {planned : List PlannedProduct}
    (h : List.Forall₂ (fun product planned => graph.planProduct order targets product = .ok planned)
      products planned) :
    planned.map (fun product => (product.name, product.targets)) =
      products.map fun product => (product.name, product.targets) := by
  refine (Outcome.map_eq_of_forall₂ h fun _ _ hplanned => ?_).symm
  obtain ⟨hname, htargets, _⟩ := planProduct_ok hplanned
  rw [hname, htargets]

theorem exists_product_of_planned {products : List Product} {planned : List PlannedProduct}
    (h : List.Forall₂ (fun product planned => graph.planProduct order targets product = .ok planned)
      products planned) {made : PlannedProduct} (hmade : made ∈ planned) :
    ∃ product ∈ products, graph.planProduct order targets product = .ok made :=
  (Outcome.mem_of_mapM_eq_ok (Outcome.mapM_eq_ok.2 h)).1 hmade

end Graph

/-! ## The main statement -/

theorem Descriptor.plan_consistent {description : PackageDescription} {descriptor : Descriptor}
    {variant : Variant} {graph : Graph} {tree : Tree} {root : Path} {schedule : Schedule}
    {toolsVersion : Version} {platform : Option Platform} {plan : Plan}
    (hselect : description.select toolsVersion = .ok variant)
    (hmaterialize : description.materialize variant = .ok descriptor)
    (hgraph : descriptor.graph = .ok graph)
    (hplan : descriptor.plan graph tree root schedule toolsVersion platform = .ok plan) :
    plan.Consistent description toolsVersion := by
  obtain ⟨htargets, _, hproducts, _⟩ := Descriptor.graph_eq_ok.1 hgraph
  obtain ⟨order, waves, sources, headers, targets, products, horder, hwaves, _, hplanned, hmade,
    rfl⟩ := Descriptor.plan_eq_ok hplan
  have hneeds : Needs graph.targets = Needs description.targets := by
    rw [htargets, PackageDescription.materialize_needs hmaterialize]
  have hnames : graph.names = Target.names description.targets := by
    rw [← PackageDescription.materialize_names hmaterialize, ← htargets]
    rfl
  have hsettled := (Graph.settled_buildOrder horder).1
  have hall := Graph.planTargets_ok hplanned
  have hmade := Outcome.mapM_eq_ok.1 hmade
  have hclosure : ∀ target ∈ targets, graph.closure target.name = .ok target.closure :=
    fun target htarget => (Graph.plannedAs_of_mem hall htarget).closure_eq
  refine {
    targets_order := Graph.names_of_planned hall
    order_perm := hnames ▸ Graph.buildOrder_perm horder
    order_nodup := hsettled.nodup
    closure_mem := fun target htarget name => ?_
    closure_before := fun target htarget => ?_
    products_visible := ⟨variant, hselect, ?_⟩
    product_closure_mem := fun product hproduct name => ?_
    product_closure_sublist := fun product hproduct => ?_
    product_headers_ascending := fun product hproduct => ?_
    product_headers_mem := fun product hproduct path => ?_
    waves_of_graph := ⟨descriptor, graph,
      Outcome.bind_eq_ok.2 ⟨variant, hselect, hmaterialize⟩, hgraph, hwaves⟩
    total_targets := rfl
    total_files := rfl
    compile_units := rfl
    parallel_groups := rfl }
  · rw [← hneeds]
    exact Graph.mem_closure_iff (hclosure target htarget)
  · have hname : target.name ∈ order := by
      rw [← Graph.names_of_planned hall]
      exact List.mem_map_of_mem htarget
    obtain ⟨pre, post, hsplit⟩ := List.append_of_mem hname
    exact ⟨pre, post, hsplit, Graph.closure_sublist_before (hclosure target htarget) horder hsplit⟩
  · obtain ⟨_, _, rfl⟩ := PackageDescription.materialize_eq_ok hmaterialize
    exact Graph.products_of_planned hmade
  all_goals
    obtain ⟨declared, hdeclared, hproduct⟩ := Graph.exists_product_of_planned hmade hproduct
    obtain ⟨_, hmembers, hmem, hsublist, hheaders⟩ := Graph.planProduct_ok hproduct
  · rw [hmem, hmembers, hneeds]
    refine ⟨fun h => h.2, fun h => ⟨(Graph.mem_buildOrder_iff horder).2 ?_, h⟩⟩
    rcases h with hmember | ⟨member, hmember, hmemberNeeds⟩
    · exact Graph.checkProducts_eq_ok hproducts declared hdeclared name hmember
    · exact Graph.mem_names_of_needs (Graph.exists_buildOrder_iff.1 ⟨order, horder⟩).1
        (hneeds ▸ hmemberNeeds)
  · exact hsublist
  · rw [hheaders]
    exact Path.sorted_ascending _
  · rw [hheaders]
    exact Graph.memOf_productHeaders

/-- A resolution never ends in a target that was not found, and a plan that it returns agrees with
    the description. -/
theorem Resolver.resolve_consistent (resolver : Resolver) (tree : Tree) (toolsVersion : Version)
    (platform : Option Platform) :
    FindsTargets (resolver.resolve tree toolsVersion platform).1 ∧
      ∀ plan, (resolver.resolve tree toolsVersion platform).1 = .ok plan →
        plan.Consistent resolver.description toolsVersion := by
  unfold Resolver.resolve
  dsimp only
  unfold PackageDescription.resolve
  constructor
  · refine .bind (resolver.description.finds_descriptorFor toolsVersion) fun descriptor _ => ?_
    refine .bind (descriptor.finds_checkPlatform platform) fun _ _ => ?_
    exact .bind descriptor.finds_graph fun graph hgraph => Descriptor.finds_plan hgraph
  · intro plan h
    obtain ⟨descriptor, hdescriptor, h⟩ := Outcome.bind_eq_ok.1 h
    obtain ⟨_, _, h⟩ := Outcome.bind_eq_ok.1 h
    obtain ⟨graph, hgraph, hplan⟩ := Outcome.bind_eq_ok.1 h
    obtain ⟨variant, hselect, hmaterialize⟩ := PackageDescription.descriptorFor_eq_ok hdescriptor
    exact Descriptor.plan_consistent hselect hmaterialize hgraph hplan

end PackagePlan
