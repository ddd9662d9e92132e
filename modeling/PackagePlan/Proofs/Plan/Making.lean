/-
  How a plan comes about. A resolution that succeeds has passed every stage (`resolve_eq_ok`), and
  in the plan that it returns every target stands with its own source set and closure and with the
  headers that these give it (`Plan.Made`, `plan_made`, `made_of_resolve`). The other way round there
  is a plan as soon as the graph has passed its checks and every source set can be resolved
  (`exists_plan`).
-/
import PackagePlan.Proofs.Plan.Consistency

namespace PackagePlan

/-- What a plan owes to the graph and the tree that it was made from. -/
structure Plan.Made (graph : Graph) (tree : Tree) (root : Path) (plan : Plan) : Prop where
  /-- A planned target has the source set and the closure of a declared one, and the headers that
      come with these. -/
  planned : ∀ planned ∈ plan.targets, ∃ target ∈ graph.targets, target.name = planned.name ∧
    SourceSet.resolve tree root target = .ok planned.sources ∧
    graph.closure planned.name = .ok planned.closure ∧
    plan.headers.surface? planned.name = some (.of target planned.sources planned.closure)
  /-- No two planned targets have one name. -/
  distinct : (plan.targets.map (·.name)).Nodup
  /-- Every declared target is planned. -/
  complete : ∀ target ∈ graph.targets, ∃ planned ∈ plan.targets, planned.name = target.name
  /-- Headers are registered of planned targets only. -/
  registered : ∀ name surface, plan.headers.surface? name = some surface →
    ∃ planned ∈ plan.targets, planned.name = name

namespace Graph

variable {graph : Graph} {tree : Tree} {root : Path} {schedule : Schedule}
  {standard : Option LanguageStandard} {sources : List (String × SourceSet)}

/-- What is found under a name among the source sets is the set of the target of that name. -/
theorem resolve_of_lookup {waves : List (List String)}
    (h : graph.allSources tree root schedule waves = .ok sources) {name : String}
    {set : SourceSet} (hset : sources.lookup name = some set) :
    ∃ target, graph.target? name = some target ∧ SourceSet.resolve tree root target = .ok set := by
  have hmem : (name, set) ∈ sources := by
    obtain ⟨before, after, rfl, -⟩ := List.lookup_eq_some_iff.1 hset
    exact List.mem_append_right _ List.mem_cons_self
  unfold allSources at h
  obtain ⟨lists, hlists, rfl⟩ := Outcome.map_eq_ok.1 h
  obtain ⟨entries, hentries, hentry⟩ := List.mem_flatten.1 hmem
  obtain ⟨wave, -, hwave⟩ := (Outcome.mem_of_mapM_eq_ok hlists).1 hentries
  obtain ⟨member, -, hmember⟩ := (Outcome.mem_of_mapM_eq_ok hwave).1 hentry
  obtain ⟨rfl, hresolved⟩ := sourcesOf_eq_ok hmember
  exact hresolved

/-- Planning registers the targets asked for, each with its own source set and closure, and leaves
    the records of all others. -/
theorem surface?_planTargets {index full : HeaderIndex} {names : List String}
    {planned : List PlannedTarget}
    (h : graph.planTargets standard sources index names = .ok (full, planned)) (name : String) :
    (name ∉ names → full.surface? name = index.surface? name) ∧
    (name ∈ names → ∃ target set closure, graph.target? name = some target ∧
      sources.lookup name = some set ∧ graph.closure name = .ok closure ∧
      full.surface? name = some (.of target set closure)) := by
  induction names generalizing index planned with
  | nil =>
    obtain ⟨rfl, -⟩ := Prod.mk.inj (Except.ok.inj h)
    exact ⟨fun _ => rfl, fun hname => nomatch hname⟩
  | cons first rest ih =>
    obtain ⟨target, set, closure, _, _, htarget, hset, hclosure, -, hothers, -⟩ :=
      planTargets_cons_ok h
    obtain ⟨hkept, hnew⟩ := ih hothers
    have hfirst : target.name = first := (target?_eq_some_iff.1 htarget).2
    constructor
    · intro hname
      rw [List.mem_cons, not_or] at hname
      obtain ⟨hne, hrest⟩ := hname
      rw [hkept hrest, HeaderIndex.surface?_register, hfirst, if_neg (Ne.symm hne)]
    · intro hname
      by_cases hrest : name ∈ rest
      · exact hnew hrest
      · obtain rfl : name = first := (List.mem_cons.1 hname).resolve_right hrest
        refine ⟨target, set, closure, htarget, hset, hclosure, ?_⟩
        rw [hkept hrest, HeaderIndex.surface?_register, if_pos hfirst]

/-- All source sets can be resolved as soon as each of them can. -/
theorem exists_allSources {waves : List (List String)}
    (hnames : ∀ name ∈ waves.flatten, name ∈ graph.names)
    (h : ∀ target ∈ graph.targets, ∃ set, SourceSet.resolve tree root target = .ok set) :
    ∃ sources, graph.allSources tree root schedule waves = .ok sources := by
  have hone : ∀ name ∈ graph.names, ∃ entry, graph.sourcesOf tree root name = .ok entry := by
    intro name hname
    obtain ⟨target, htarget⟩ := exists_require hname
    obtain ⟨set, hset⟩ := h target (target?_eq_some_iff.1 (require_eq_ok.1 htarget)).1
    exact ⟨_, Outcome.bind_eq_ok.2 ⟨target, htarget, Outcome.bind_eq_ok.2 ⟨set, hset, rfl⟩⟩⟩
  have hwave : ∀ wave ∈ waves, ∃ entries,
      graph.waveSources tree root (schedule.arrange wave) = .ok entries := by
    intro wave hwave
    refine Outcome.exists_mapM_eq_ok fun name hname => hone name (hnames name ?_)
    exact List.mem_flatten.2 ⟨wave, hwave, (schedule.arrange_perm wave).mem_iff.1 hname⟩
  obtain ⟨lists, hlists⟩ := Outcome.exists_mapM_eq_ok hwave
  exact ⟨lists.flatten, Outcome.map_eq_ok.2 ⟨lists, hlists, rfl⟩⟩

end Graph

namespace Descriptor

variable {descriptor : Descriptor} {graph : Graph} {tree : Tree} {root : Path}
  {schedule : Schedule} {toolsVersion : Version} {platform : Option Platform} {plan : Plan}

theorem plan_made (h : descriptor.plan graph tree root schedule toolsVersion platform = .ok plan) :
    plan.Made graph tree root := by
  obtain ⟨order, waves, sources, headers, targets, products, horder, -, hsources, hplanned, -,
    rfl⟩ := plan_eq_ok h
  have hall := Graph.planTargets_ok hplanned
  have hnames := Graph.names_of_planned hall
  refine
    { planned := fun planned hmem => ?_
      distinct := hnames ▸ (Graph.settled_buildOrder horder).1.nodup
      complete := fun target hmem => ?_
      registered := fun name surface hsurface => ?_ }
  · obtain ⟨target, set, closure, dirs, htarget, hset, hclosure, hof⟩ :=
      Graph.plannedAs_of_mem hall hmem
    have hname : planned.name ∈ order := by
      rw [← hnames]
      exact List.mem_map_of_mem hmem
    obtain ⟨target', set', closure', htarget', hset', hclosure', hsurface⟩ :=
      (Graph.surface?_planTargets hplanned planned.name).2 hname
    obtain rfl := Option.some.inj (htarget.symm.trans htarget')
    obtain rfl := Option.some.inj (hset.symm.trans hset')
    obtain rfl := Except.ok.inj (hclosure.symm.trans hclosure')
    obtain ⟨found, hfound, hresolved⟩ := Graph.resolve_of_lookup hsources hset
    obtain rfl := Option.some.inj (hfound.symm.trans htarget)
    obtain ⟨hdeclared, hname⟩ := Graph.target?_eq_some_iff.1 htarget
    have hset : planned.sources = set := by rw [hof]; rfl
    have hclosed : planned.closure = closure := by rw [hof]; rfl
    rw [hset, hclosed]
    exact ⟨found, hdeclared, hname, hresolved, hclosure, hsurface⟩
  · have hin : target.name ∈ targets.map (·.name) := by
      rw [hnames, Graph.mem_buildOrder_iff horder]
      exact Target.mem_names.2 ⟨target, hmem, rfl⟩
    exact List.mem_map.1 hin
  · by_cases hname : name ∈ order
    · rw [← hnames] at hname
      exact List.mem_map.1 hname
    · rw [(Graph.surface?_planTargets hplanned name).1 hname] at hsurface
      cases hsurface

/-- A checked graph can be planned as soon as every source set can be resolved. -/
theorem exists_plan (hgraph : descriptor.graph = .ok graph)
    (h : ∀ target ∈ graph.targets, ∃ set, SourceSet.resolve tree root target = .ok set) :
    ∃ plan, descriptor.plan graph tree root schedule toolsVersion platform = .ok plan := by
  obtain ⟨-, hcheck, -, -⟩ := graph_eq_ok.1 hgraph
  have hbuild := Graph.exists_buildOrder_iff.2 (Graph.check_eq_ok_iff.1 hcheck)
  have hwaves := Graph.waves_eq_ok.2 ⟨hbuild, rfl⟩
  obtain ⟨sources, hsources⟩ : ∃ sources,
      graph.allSources tree root schedule (Graph.wavesFrom [] graph.targets) = .ok sources :=
    Graph.exists_allSources
      (fun name hname => (Graph.flatten_waves_perm hwaves).mem_iff.1 hname) h
  exact exists_plan_of_sources hgraph hsources

end Descriptor

namespace Plan.Made

variable {graph : Graph} {tree : Tree} {root : Path} {plan : Plan}

/-- Different planned targets have different names. -/
theorem name_ne (h : plan.Made graph tree root) {a b : PlannedTarget} (ha : a ∈ plan.targets)
    (hb : b ∈ plan.targets) (hne : a ≠ b) : a.name ≠ b.name := fun hname =>
  hne (List.inj_on_of_nodup_map h.distinct ha hb hname)

/-- Behind every declared target of a plan there is a source set. -/
theorem exists_resolve (h : plan.Made graph tree root) {target : Target}
    (htarget : target ∈ graph.targets) :
    ∃ set, SourceSet.resolve tree root target = .ok set := by
  obtain ⟨planned, hplanned, hname⟩ := h.complete target htarget
  obtain ⟨found, hfound, hfoundName, hresolved, -⟩ := h.planned planned hplanned
  obtain rfl := Target.eq_of_name_eq graph.distinct hfound htarget (hfoundName.trans hname)
  exact ⟨_, hresolved⟩

/-- A declared target is planned with the source set that it has in the tree. -/
theorem exists_planned (h : plan.Made graph tree root) {target : Target}
    (htarget : target ∈ graph.targets) {set : SourceSet}
    (hset : SourceSet.resolve tree root target = .ok set) :
    ∃ planned ∈ plan.targets, planned.name = target.name ∧ planned.sources = set ∧
      ∃ closure, graph.closure target.name = .ok closure ∧
        plan.headers.surface? target.name = some (.of target set closure) := by
  obtain ⟨planned, hplanned, hname⟩ := h.complete target htarget
  obtain ⟨found, hfound, hfoundName, hresolved, hclosure, hrecord⟩ := h.planned planned hplanned
  obtain rfl := Target.eq_of_name_eq graph.distinct hfound htarget (hfoundName.trans hname)
  obtain rfl := Except.ok.inj (hresolved.symm.trans hset)
  rw [hname] at hclosure hrecord
  exact ⟨planned, hplanned, hname, rfl, planned.closure, hclosure, hrecord⟩

end Plan.Made

namespace PackageDescription

variable {description : PackageDescription} {tree : Tree} {root : Path} {schedule : Schedule}
  {toolsVersion : Version} {platform : Option Platform}

/-- The stages behind a resolution that succeeds. -/
theorem resolve_eq_ok {plan : Plan} :
    description.resolve tree root schedule toolsVersion platform = .ok plan ↔
      ∃ descriptor graph, description.descriptorFor toolsVersion = .ok descriptor ∧
        descriptor.checkPlatform platform = .ok () ∧ descriptor.graph = .ok graph ∧
        descriptor.plan graph tree root schedule toolsVersion platform = .ok plan := by
  unfold resolve
  rw [Outcome.bind_eq_ok]
  constructor
  · intro h
    obtain ⟨descriptor, hdescriptor, h⟩ := h
    obtain ⟨_, hplatform, h⟩ := Outcome.bind_eq_ok.1 h
    obtain ⟨graph, hgraph, hplan⟩ := Outcome.bind_eq_ok.1 h
    exact ⟨descriptor, graph, hdescriptor, hplatform, hgraph, hplan⟩
  · intro h
    obtain ⟨descriptor, graph, hdescriptor, hplatform, hgraph, hplan⟩ := h
    exact ⟨descriptor, hdescriptor, Outcome.bind_eq_ok.2 ⟨(), hplatform,
      Outcome.bind_eq_ok.2 ⟨graph, hgraph, hplan⟩⟩⟩

/-- Once the checks are passed a resolution succeeds if every source set can be resolved. -/
theorem exists_resolve {descriptor : Descriptor} {graph : Graph}
    (hdescriptor : description.descriptorFor toolsVersion = .ok descriptor)
    (hplatform : descriptor.checkPlatform platform = .ok ())
    (hgraph : descriptor.graph = .ok graph)
    (h : ∀ target ∈ graph.targets, ∃ set, SourceSet.resolve tree root target = .ok set) :
    ∃ plan, description.resolve tree root schedule toolsVersion platform = .ok plan ∧
      plan.Made graph tree root := by
  obtain ⟨plan, hplan⟩ : ∃ plan,
      descriptor.plan graph tree root schedule toolsVersion platform = .ok plan :=
    Descriptor.exists_plan hgraph h
  exact ⟨plan, resolve_eq_ok.2 ⟨descriptor, graph, hdescriptor, hplatform, hgraph, hplan⟩,
    Descriptor.plan_made hplan⟩

/-- A resolution that succeeds has planned the declared targets, with nothing but exclusions
    added, after their source roots were checked. -/
theorem made_of_resolve {plan : Plan}
    (h : description.resolve tree root schedule toolsVersion platform = .ok plan) :
    ∃ graph : Graph, graph.checkRoots = .ok () ∧ plan.Made graph tree root ∧
      ∀ declared ∈ description.targets, ∃ target ∈ graph.targets,
        target.name = declared.name ∧ target.sourceRoots = declared.sourceRoots := by
  obtain ⟨descriptor, graph, hdescriptor, -, hgraph, hplan⟩ := resolve_eq_ok.1 h
  obtain ⟨htargets, -, -, hroots⟩ := Descriptor.graph_eq_ok.1 hgraph
  obtain ⟨variant, -, hmaterialize⟩ := descriptorFor_eq_ok hdescriptor
  refine ⟨graph, hroots, Descriptor.plan_made hplan, fun declared hdeclared => ?_⟩
  have hkept : descriptor.targets.map (fun target => (target.name, target.sourceRoots)) =
      description.targets.map fun target => (target.name, target.sourceRoots) :=
    materialize_map _ (fun _ _ => rfl) hmaterialize
  have hmem : (declared.name, declared.sourceRoots) ∈
      description.targets.map fun target => (target.name, target.sourceRoots) :=
    List.mem_map.2 ⟨declared, hdeclared, rfl⟩
  rw [← hkept, ← htargets] at hmem
  obtain ⟨target, htarget, hsame⟩ := List.mem_map.1 hmem
  obtain ⟨hname, hsources⟩ := Prod.mk.inj hsame
  exact ⟨target, htarget, hname, hsources⟩

end PackageDescription

end PackagePlan
