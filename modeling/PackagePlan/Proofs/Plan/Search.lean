/-
  Where the compilations of a plan look for headers. A target is registered after everything it
  needs and no target is registered twice, so the directories that are read off at its registration
  are those of the finished index (`includeDirs_planTargets`). They are the private search
  directories of the target, its own public headers directory and those of its closure, each at its
  first place (`Plan.Searches`, `resolve_searches`).

  First places are told apart by components, and a `.` in front of a path is one. The search
  directories come without it, while the public headers directories begin as the package root does.
  Below a package root that begins with `.` a directory that is both is searched twice, and no other
  directory is (`resolve_searchesOnce_iff`).
-/
import PackagePlan.Proofs.Headers.Search
import PackagePlan.Proofs.Plan.Ownership
import PackagePlan.Proofs.Plan.Spelling

namespace PackagePlan

open PackagePlan.Path

namespace Path

/-- The path goes on by names from the base, whatever stands in front of the base. -/
def Extends (p base : Path) : Prop :=
  ∃ steps, (∀ c ∈ steps, c.IsName) ∧ p.components = base.components ++ steps

namespace Extends

variable {p q base : Path}

theorem current_mem_iff (h : p.Extends base) :
    .current ∈ p.components ↔ base.lead = .current := by
  obtain ⟨steps, hsteps, hcomponents⟩ := h
  have hnames : .current ∉ steps := fun hmem => hsteps _ hmem
  rw [hcomponents, List.mem_append, or_iff_left hnames, current_mem_components_iff]

/-- Paths that go on from one base are told apart without their `.` components. -/
theorem components_eq (hp : p.Extends base) (hq : q.Extends base)
    (h : p.undotted = q.undotted) : p.components = q.components := by
  obtain ⟨steps, hsteps, hcomponents⟩ := hp
  obtain ⟨others, hothers, hcomponents'⟩ := hq
  have hsame : steps = others := by
    unfold undotted at h
    rw [hcomponents, hcomponents', List.filter_append, List.filter_append,
      filter_of_not_mem fun hmem => hsteps _ hmem,
      filter_of_not_mem fun hmem => hothers _ hmem] at h
    exact List.append_cancel_left h
  rw [hcomponents, hcomponents', hsame]

end Extends

end Path

/-! ## The directories that are asked for -/

/-- The private search directories of a target, as seen from where the package root is seen. -/
def Target.searchDirs (target : Target) (packageRoot : Path) : List Path :=
  target.headerSearchPaths.map fun path => ((packageRoot.join target.path).join path).normalize

theorem Target.current_not_mem_of_searchDirs {target : Target} {packageRoot p : Path}
    (h : p ∈ target.searchDirs packageRoot) : .current ∉ p.components := by
  obtain ⟨path, -, rfl⟩ := List.mem_map.1 h
  rw [components_normalize]
  exact current_not_mem_undotted _

/-- The public headers directories of the planned targets of these names. -/
def Plan.publicDirs (plan : Plan) (names : List String) : List Path :=
  names.filterMap fun name => (plan.target? name).bind (·.sources.publicDir)

/-- The public headers directory of a planned target, and those of its closure. -/
def Plan.offeredDirs (plan : Plan) (planned : PlannedTarget) : List Path :=
  planned.sources.publicDir.toList ++ plan.publicDirs planned.closure

/-- Where the compilation of a planned target looks for headers. -/
structure Plan.Searches (plan : Plan) (packageRoot : Path) (declared : Target)
    (planned : PlannedTarget) : Prop where
  /-- The private search directories as declared, the public headers directory, and those of the
  closure, each at its first place. -/
  dirs : Firsts (declared.searchDirs packageRoot ++ planned.sources.publicDir.toList ++
    plan.publicDirs planned.closure) planned.includeDirs
  publicDir : planned.sources.publicDir = declared.publicHeadersDir?.map packageRoot.join
  ordered : planned.closure.Sublist plan.buildOrder
  /-- The finished index gives the same directories. -/
  final : plan.headers.includeDirs planned.name = .ok planned.includeDirs
  /-- No public headers directory of the closure is missing. -/
  complete : ∀ name ∈ planned.closure, ∃ needed ∈ plan.targets, needed.name = name ∧
    ∀ dir, needed.sources.publicDir = some dir → dir.memOf planned.includeDirs = true
  /-- Of other targets only public headers directories are searched. -/
  only : ∀ dir ∈ planned.includeDirs, dir ∈ declared.searchDirs packageRoot ∨
    planned.sources.publicDir = some dir ∨
    ∃ needed ∈ plan.targets, needed.name ∈ planned.closure ∧ needed.sources.publicDir = some dir

theorem HeaderSurface.searchDirs_of {target : Target} (hvalid : target.isValid = true)
    {packageRoot : Path} {set : SourceSet} (hroot : set.root = packageRoot.join target.path)
    (closure : List String) :
    (of target set closure).searchDirs = target.searchDirs packageRoot := by
  have hfull : (packageRoot.join target.path).text ≠ "" := SourceSet.root_text_ne_empty hvalid
  unfold of Target.privateSearchPaths Target.searchDirs
  dsimp only
  rw [List.map_map]
  refine List.map_congr_left fun path hpath => ?_
  have hrelative := isAbsolute_of_isContained (target.isContained_of_mem_searchPaths hvalid hpath)
  have hsteps : ∀ c ∈ path.inner, c.IsStep := fun _ => isStep_of_mem_inner
  rw [Function.comp_apply, hroot, normalize_eq hrelative]
  unfold Path.normalize
  rw [components_join hfull (isAbsolute_ofComponents hsteps), components_join hfull hrelative,
    inner_ofComponents hsteps]

/-! ## Registered in build order -/

namespace Graph

variable {graph : Graph} {sources : List (String × SourceSet)}
  {standard : Option LanguageStandard} {order : List String}

/-- A name that is planned later is another one, and the earlier one does not need it. -/
def Unneeded (graph : Graph) (name later : String) : Prop :=
  name ≠ later ∧ ∀ closure, graph.closure name = .ok closure → later ∉ closure

theorem unneeded_of_buildOrder (horder : graph.buildOrder = .ok order) :
    order.Pairwise graph.Unneeded := by
  have hnodup := (settled_buildOrder horder).1.nodup
  rw [List.pairwise_iff_forall_sublist]
  intro name later hpair
  obtain ⟨front, back, rfl, hname, hlater⟩ := List.cons_sublist_iff.1 hpair
  obtain ⟨pre, post, rfl⟩ := List.append_of_mem hname
  have hmem : later ∈ post ++ back := List.mem_append_right _ (List.singleton_sublist.1 hlater)
  have hsplit : pre ++ name :: post ++ back = pre ++ name :: (post ++ back) := by simp
  rw [hsplit] at hnodup horder
  obtain ⟨-, hbehind, hapart⟩ := List.nodup_append.1 hnodup
  refine ⟨fun heq => (List.nodup_cons.1 hbehind).1 (heq ▸ hmem), fun closure hclosure hin => ?_⟩
  have hbefore := closure_sublist_before hclosure horder rfl
  exact hapart later (hbefore.subset hin) later (List.mem_cons_of_mem _ hmem) rfl

/-- What is read off at the registration of a target is what the finished index gives. -/
theorem includeDirs_planTargets {index full : HeaderIndex} {names : List String}
    {planned : List PlannedTarget}
    (h : graph.planTargets standard sources index names = .ok (full, planned))
    (hlater : names.Pairwise graph.Unneeded) :
    ∀ target ∈ planned, full.includeDirs target.name = .ok target.includeDirs := by
  induction names generalizing index planned with
  | nil =>
    obtain ⟨-, rfl⟩ := Prod.mk.inj (Except.ok.inj h)
    exact fun _ hmem => nomatch hmem
  | cons name rest ih =>
    obtain ⟨target, set, closure, dirs, others, htarget, hset, hclosure, hdirs, hothers, rfl⟩ :=
      planTargets_cons_ok h
    obtain ⟨hunneeded, hrest⟩ := List.pairwise_cons.1 hlater
    obtain rfl := (target?_eq_some_iff.1 htarget).2
    refine List.forall_mem_cons.2 ⟨?_, ih hothers hrest⟩
    have hkept : ∀ other, other ∉ rest → full.surface? other =
        (index.register target set closure).surface? other :=
      fun other => (surface?_planTargets hothers other).1
    have hown : (index.register target set closure).surface? target.name =
        some (.of target set closure) := by rw [HeaderIndex.surface?_register, if_pos rfl]
    have hsame : full.includeDirs target.name =
        (index.register target set closure).includeDirs target.name :=
      HeaderIndex.includeDirs_of_closure hown
        (hkept _ fun hmem => (hunneeded _ hmem).1 rfl)
        fun member hmember => hkept member fun hmem =>
          (hunneeded member hmem).2 closure hclosure hmember
    exact hsame.trans hdirs

end Graph

theorem Descriptor.includeDirs_of_plan {descriptor : Descriptor} {graph : Graph} {tree : Tree}
    {root : Path} {schedule : Schedule} {toolsVersion : Version} {platform : Option Platform}
    {plan : Plan}
    (h : descriptor.plan graph tree root schedule toolsVersion platform = .ok plan) :
    plan.targets.map (·.name) = plan.buildOrder ∧ ∀ planned ∈ plan.targets,
      plan.headers.includeDirs planned.name = .ok planned.includeDirs ∧
      planned.closure.Sublist plan.buildOrder := by
  obtain ⟨order, waves, sources, headers, targets, products, horder, -, -, hplanned, -, rfl⟩ :=
    plan_eq_ok h
  have hall := Graph.planTargets_ok hplanned
  have hnames := Graph.names_of_planned hall
  refine ⟨hnames, fun planned hmem => ⟨?_, ?_⟩⟩
  · exact Graph.includeDirs_planTargets hplanned (Graph.unneeded_of_buildOrder horder) planned hmem
  · have hname : planned.name ∈ order := hnames ▸ List.mem_map_of_mem hmem
    obtain ⟨pre, post, hsplit⟩ := List.append_of_mem hname
    have hbefore := Graph.closure_sublist_before (Graph.plannedAs_of_mem hall hmem).closure_eq
      horder hsplit
    exact hbefore.trans (hsplit ▸ List.sublist_append_left pre (planned.name :: post))

/-! ## In a plan -/

namespace Plan.Made

variable {graph : Graph} {tree : Tree} {root : Path} {plan : Plan}

theorem target?_name (h : plan.Made graph tree root) {planned : PlannedTarget}
    (hmem : planned ∈ plan.targets) : plan.target? planned.name = some planned := by
  unfold Plan.target?
  cases hfind : plan.targets.find? (·.name == planned.name) with
  | none => exact absurd (List.find?_eq_none.1 hfind planned hmem) (by simp)
  | some found =>
    have hname : found.name = planned.name := by simpa using List.find?_some hfind
    rw [List.inj_on_of_nodup_map h.distinct (List.mem_of_find?_eq_some hfind) hmem hname]

/-- What the index has of planned targets are their public headers directories. -/
theorem publicDirs_eq (h : plan.Made graph tree root) {names : List String}
    (hnames : ∀ name ∈ names, name ∈ plan.targets.map (·.name)) :
    (names.filterMap fun name => (plan.headers.surface? name).bind (·.publicDir)) =
      plan.publicDirs names := by
  refine List.filterMap_congr fun name hname => ?_
  obtain ⟨planned, hmem, rfl⟩ := List.mem_map.1 (hnames name hname)
  obtain ⟨target, -, -, -, -, hsurface⟩ := h.planned planned hmem
  rw [hsurface, h.target?_name hmem]
  rfl

theorem mem_publicDirs (h : plan.Made graph tree root) {names : List String}
    (hnames : ∀ name ∈ names, name ∈ plan.targets.map (·.name)) {dir : Path} :
    dir ∈ plan.publicDirs names ↔
      ∃ needed ∈ plan.targets, needed.name ∈ names ∧ needed.sources.publicDir = some dir := by
  unfold Plan.publicDirs
  rw [List.mem_filterMap]
  constructor
  · rintro ⟨name, hname, hdir⟩
    obtain ⟨needed, hmem, rfl⟩ := List.mem_map.1 (hnames name hname)
    rw [h.target?_name hmem] at hdir
    exact ⟨needed, hmem, hname, hdir⟩
  · rintro ⟨needed, hmem, hname, hdir⟩
    refine ⟨needed.name, hname, ?_⟩
    rw [h.target?_name hmem]
    exact hdir

/-- What the compilation of a planned target searches, said by the target of the graph. -/
theorem searches_of (h : plan.Made graph tree root)
    (horder : plan.targets.map (·.name) = plan.buildOrder) {planned : PlannedTarget}
    (hmem : planned ∈ plan.targets)
    (hfinal : plan.headers.includeDirs planned.name = .ok planned.includeDirs)
    (hordered : planned.closure.Sublist plan.buildOrder) :
    ∃ target ∈ graph.targets, target.name = planned.name ∧ plan.Searches root target planned := by
  obtain ⟨target, htarget, hname, hresolved, -, hsurface⟩ := h.planned planned hmem
  have hclosure : ∀ name ∈ planned.closure, name ∈ plan.targets.map (·.name) :=
    fun name hin => horder ▸ hordered.subset hin
  obtain ⟨hroot, hpublic⟩ : planned.sources.root = root.join target.path ∧
      planned.sources.publicDir = target.publicHeadersDir?.map root.join := by
    obtain ⟨_, _, _, -, -, -, -, hset⟩ := SourceSet.resolve_eq_ok hresolved
    rw [hset]
    exact ⟨rfl, rfl⟩
  have hdirs : Firsts (target.searchDirs root ++ planned.sources.publicDir.toList ++
      plan.publicDirs planned.closure) planned.includeDirs := by
    rw [HeaderIndex.includeDirs_eq hsurface,
      HeaderSurface.searchDirs_of (graph.valid target htarget) hroot] at hfinal
    rw [← h.publicDirs_eq hclosure, ← Except.ok.inj hfinal]
    exact HeaderIndex.distinct_firsts _
  refine ⟨target, htarget, hname, hdirs, hpublic, hordered, hfinal, fun name hin => ?_,
    fun dir hdir => ?_⟩
  · obtain ⟨needed, hneeded, rfl⟩ := List.mem_map.1 (hclosure name hin)
    refine ⟨needed, hneeded, rfl, fun dir hdir => ?_⟩
    rw [hdirs.memOf_eq]
    have hasked := (h.mem_publicDirs hclosure).2 ⟨needed, hneeded, hin, hdir⟩
    exact memOf_of_mem (List.mem_append_right _ hasked)
  · have hasked := hdirs.sublist.subset hdir
    rw [List.append_assoc, List.mem_append, List.mem_append, Option.mem_toList,
      h.mem_publicDirs hclosure] at hasked
    exact hasked

/-- Public headers directories go on from the package root by names. -/
theorem extends_root (h : plan.Made graph tree root) {planned : PlannedTarget}
    (hmem : planned ∈ plan.targets)
    (hclosure : ∀ name ∈ planned.closure, name ∈ plan.targets.map (·.name)) {dir : Path}
    (hdir : dir ∈ plan.offeredDirs planned) :
    dir.Extends root := by
  obtain ⟨owner, howner, hpublic⟩ : ∃ owner ∈ plan.targets,
      owner.sources.publicDir = some dir := by
    rcases List.mem_append.1 hdir with hdir | hdir
    · exact ⟨planned, hmem, Option.mem_toList.1 hdir⟩
    · obtain ⟨needed, hneeded, -, hdir⟩ := (h.mem_publicDirs hclosure).1 hdir
      exact ⟨needed, hneeded, hdir⟩
  obtain ⟨target, htarget, -, hresolved, -, -⟩ := h.planned owner howner
  obtain ⟨_, _, _, -, -, -, -, hset⟩ := SourceSet.resolve_eq_ok hresolved
  rw [hset] at hpublic
  obtain ⟨place, hplace, rfl⟩ := Option.map_eq_some_iff.1 hpublic
  have hvalid := graph.valid target htarget
  obtain ⟨more, hmore, rfl⟩ := target.exists_of_publicHeadersDir? hvalid hplace
  exact ⟨_, SourceSet.isName_append hvalid hmore, SourceSet.components_place hvalid hmore⟩

end Plan.Made

namespace PackageDescription

/-- A variant changes nothing of a target but its exclusions. -/
theorem exists_declared {description : PackageDescription} {variant : Variant}
    {descriptor : Descriptor} (h : description.materialize variant = .ok descriptor)
    {target : Target} (hmem : target ∈ descriptor.targets) :
    ∃ declared ∈ description.targets, ∃ exclude, target = { declared with exclude } := by
  have hkept : descriptor.targets.map (fun target => { target with exclude := [] }) =
      description.targets.map fun target => { target with exclude := [] } :=
    materialize_map _ (fun _ _ => rfl) h
  have hin := List.mem_map_of_mem (f := fun target : Target => { target with exclude := [] }) hmem
  rw [hkept] at hin
  obtain ⟨declared, hdeclared, hsame⟩ := List.mem_map.1 hin
  exact ⟨declared, hdeclared, target.exclude,
    congrArg (fun same : Target => { same with exclude := target.exclude }) hsame.symm⟩

/-- Every planned target goes back to a declared one: its closure is what that one needs, and its
compilation searches the directories that follow from the declaration. -/
theorem exists_searches {description : PackageDescription} {tree : Tree} {root : Path}
    {schedule : Schedule} {toolsVersion : Version} {platform : Option Platform} {plan : Plan}
    (h : description.resolve tree root schedule toolsVersion platform = .ok plan) :
    ∃ graph, plan.Made graph tree root ∧ plan.targets.map (·.name) = plan.buildOrder ∧
      ∀ planned ∈ plan.targets, ∃ declared ∈ description.targets, declared.name = planned.name ∧
        (∀ name, name ∈ planned.closure ↔
          Target.Needs description.targets planned.name name) ∧
        plan.Searches root declared planned := by
  obtain ⟨descriptor, graph, hdescriptor, -, hgraph, hplan⟩ := resolve_eq_ok.1 h
  obtain ⟨variant, -, hmaterialize⟩ := descriptorFor_eq_ok hdescriptor
  obtain ⟨horder, hsearched⟩ := Descriptor.includeDirs_of_plan hplan
  have hmade := Descriptor.plan_made hplan
  obtain ⟨htargets, -⟩ := Descriptor.graph_eq_ok.1 hgraph
  refine ⟨graph, hmade, horder, fun planned hmem => ?_⟩
  obtain ⟨hfinal, hordered⟩ := hsearched planned hmem
  obtain ⟨_, -, -, -, hclosure, -⟩ := hmade.planned planned hmem
  obtain ⟨target, htarget, hname, hsearches⟩ :=
    hmade.searches_of horder hmem hfinal hordered
  obtain ⟨declared, hdeclared, exclude, rfl⟩ := exists_declared hmaterialize (htargets ▸ htarget)
  have hneeds : ∀ name, name ∈ planned.closure ↔
      Target.Needs description.targets planned.name name := fun name => by
    rw [Graph.mem_closure_iff hclosure, htargets, materialize_needs hmaterialize]
  exact ⟨declared, hdeclared, hname, hneeds,
    { dirs := hsearches.dirs
      publicDir := hsearches.publicDir
      ordered := hordered
      final := hfinal
      complete := hsearches.complete
      only := hsearches.only }⟩

end PackageDescription

/-! ## Searched twice -/

/-- No two of the directories that the compilation of a planned target searches are one directory:
they differ in more than `.` components. -/
def PlannedTarget.SearchesOnce (planned : PlannedTarget) : Prop :=
  planned.includeDirs.Pairwise fun p q => p.undotted ≠ q.undotted

namespace Plan.Searches

variable {plan : Plan} {root : Path} {declared : Target} {planned : PlannedTarget}
  (h : plan.Searches root declared planned)
include h

/-- What is asked for falls in two parts, the search directories and what is offered. -/
theorem firsts :
    Firsts (declared.searchDirs root ++ plan.offeredDirs planned) planned.includeDirs :=
  List.append_assoc .. ▸ h.dirs

/-- Every directory that is asked for stands in the list, under an equal path. -/
theorem exists_mem {p : Path} (hp : p ∈ declared.searchDirs root ++ plan.offeredDirs planned) :
    ∃ q ∈ planned.includeDirs, p.components = q.components :=
  memOf_iff.1 ((h.firsts.memOf_eq p).trans (memOf_of_mem hp))

/-- A target that needs no other searches its own directories. -/
theorem includeDirs_of_record {target : Target} {set : SourceSet}
    (hsurface : plan.headers.surface? planned.name = some (.of target set [])) :
    planned.includeDirs = HeaderIndex.distinct
      ((HeaderSurface.of target set []).searchDirs ++ set.publicDir.toList) := by
  have hfinal := h.final
  rw [HeaderIndex.includeDirs_eq hsurface] at hfinal
  rw [← Except.ok.inj hfinal]
  exact congrArg HeaderIndex.distinct (List.append_nil _)

variable (hoffered : ∀ q ∈ plan.offeredDirs planned, q.Extends root)
include hoffered

/-- Below a `.` the same directory stands in the list under both of its paths. -/
theorem apart_of_once (honce : planned.SearchesOnce) (hlead : root.lead = .current) {p q : Path}
    (hp : p ∈ declared.searchDirs root) (hq : q ∈ plan.offeredDirs planned) :
    p.undotted ≠ q.undotted := by
  intro hsame
  obtain ⟨p', hp', hpp⟩ := h.exists_mem (List.mem_append_left _ hp)
  obtain ⟨q', hq', hqq⟩ := h.exists_mem (List.mem_append_right _ hq)
  have hne : p' ≠ q' := by
    rintro rfl
    have hdot := (hoffered q hq).current_mem_iff.2 hlead
    rw [hqq, ← hpp] at hdot
    exact Target.current_not_mem_of_searchDirs hp hdot
  have hsymm : Std.Symm fun p q : Path => p.undotted ≠ q.undotted := ⟨fun _ _ => Ne.symm⟩
  refine honce.forall hp' hq' hne ?_
  rw [← undotted_congr hpp, ← undotted_congr hqq, hsame]

/-- Search directories are told apart from each other, and so are those that are offered. -/
theorem once_of_apart (hapart : root.lead = .current → ∀ p ∈ declared.searchDirs root,
    ∀ q ∈ plan.offeredDirs planned, p.undotted ≠ q.undotted) : planned.SearchesOnce := by
  have hsearched : ∀ p ∈ declared.searchDirs root, p.undotted = p.components :=
    fun p hp => undotted_of_not_mem (Target.current_not_mem_of_searchDirs hp)
  obtain ⟨front, back, heq, hfront, hback⟩ := List.sublist_append_iff.1 h.firsts.sublist
  have hdistinct := h.firsts.apart
  unfold PlannedTarget.SearchesOnce
  rw [heq] at hdistinct ⊢
  obtain ⟨hfrontApart, hbackApart, hcross⟩ := List.pairwise_append.1 hdistinct
  refine List.pairwise_append.2 ⟨?_, ?_, fun p hp q hq => ?_⟩
  · refine hfrontApart.imp_of_mem fun {p q} hp hq hne => ?_
    rwa [hsearched p (hfront.subset hp), hsearched q (hfront.subset hq)]
  · exact hbackApart.imp_of_mem fun {p q} hp hq hne hsame => hne
      ((hoffered p (hback.subset hp)).components_eq (hoffered q (hback.subset hq)) hsame)
  · have hsearch := hfront.subset hp
    have hoffer := hback.subset hq
    by_cases hlead : root.lead = .current
    · exact hapart hlead p hsearch q hoffer
    · have hnot := mt (hoffered q hoffer).current_mem_iff.1 hlead
      rw [hsearched p hsearch, undotted_of_not_mem hnot]
      exact hcross p hp q hq

end Plan.Searches

/-! ## The main statements -/

namespace Resolver

/-- The directories that the compilations of a plan search are those that the package declares, and
they are the same at the registration of a target as in the finished plan. -/
theorem resolve_searches (resolver : Resolver) (tree : Tree) (toolsVersion : Version)
    (platform : Option Platform) {plan : Plan}
    (h : (resolver.resolve tree toolsVersion platform).1 = .ok plan) :
    ∀ planned ∈ plan.targets, ∃ declared ∈ resolver.description.targets,
      declared.name = planned.name ∧
      (∀ name, name ∈ planned.closure ↔
        Target.Needs resolver.description.targets planned.name name) ∧
      plan.Searches resolver.packageRoot declared planned := by
  obtain ⟨_, -, -, hsearches⟩ := PackageDescription.exists_searches h
  exact hsearches

/-- An application searches the directory of the library that offers headers. -/
theorem resolve_searches_commons :
    ∃ plan, (Commons.resolver.resolve Commons.tree ⟨1, 0, 0⟩ none).1 = .ok plan ∧
      ∃ planned ∈ plan.targets, planned.name = "app" ∧
        (⟨"./lib"⟩ : Path).memOf planned.includeDirs = true := by
  obtain ⟨plan, hplan, hmade⟩ := Commons.exists_made
  obtain ⟨app, happ, hname, -, -⟩ := hmade.exists_planned (by decide) Commons.resolve_app
  obtain ⟨opened, hopened, hopen, hset, -⟩ :=
    hmade.exists_planned (by decide) Commons.resolve_opened
  obtain ⟨_, -, -, hneeds, hsearches⟩ :=
    resolve_searches Commons.resolver Commons.tree ⟨1, 0, 0⟩ none hplan app happ
  have hin : "open" ∈ app.closure :=
    (hneeds "open").2 (.single ⟨Commons.app, List.mem_cons_self, hname.symm, by decide⟩)
  obtain ⟨needed, hneeded, hsame, hdirs⟩ := hsearches.complete "open" hin
  obtain rfl := List.inj_on_of_nodup_map hmade.distinct hneeded hopened (hsame.trans hopen.symm)
  exact ⟨plan, hplan, app, happ, hname, hdirs _ (by rw [hset]; rfl)⟩

/-- A compilation of a plan searches a directory twice exactly when the package root begins with `.`
and the directory is a search directory of the target as well as a public headers directory. -/
theorem resolve_searchesOnce_iff (resolver : Resolver) (tree : Tree) (toolsVersion : Version)
    (platform : Option Platform) {plan : Plan}
    (h : (resolver.resolve tree toolsVersion platform).1 = .ok plan) :
    ∀ planned ∈ plan.targets, ∃ declared ∈ resolver.description.targets,
      declared.name = planned.name ∧
      (planned.SearchesOnce ↔ (resolver.packageRoot.lead = .current →
        ∀ p ∈ declared.searchDirs resolver.packageRoot, ∀ q ∈ plan.offeredDirs planned,
          p.undotted ≠ q.undotted)) := by
  obtain ⟨graph, hmade, horder, hsearches⟩ := PackageDescription.exists_searches h
  intro planned hmem
  obtain ⟨declared, hdeclared, hname, -, hsearch⟩ := hsearches planned hmem
  have hoffered : ∀ q ∈ plan.offeredDirs planned, q.Extends resolver.packageRoot := fun q hq =>
    hmade.extends_root hmem (fun name hin => horder ▸ hsearch.ordered.subset hin) hq
  exact ⟨declared, hdeclared, hname,
    fun honce hlead p hp q hq => hsearch.apart_of_once hoffered honce hlead hp hq,
    hsearch.once_of_apart hoffered⟩

end Resolver

namespace Core

/-- The library at the package root that stands for itself. -/
def resolver : Resolver := { description }

def set : SourceSet :=
  { target := "core"
    root := ⟨"./src"⟩
    files := [⟨"lib/a.c"⟩]
    publicDir := some ⟨"./src/include"⟩
    publicHeaders := [⟨"core.h"⟩]
    unusedExclusions := [] }

theorem resolve_target : SourceSet.resolve tree ⟨"."⟩ target = .ok set := by decide +kernel

/-- The library when it searches its sources for headers, and not its public headers. -/
def beside : Target := { target with headerSearchPaths := [⟨"lib"⟩] }

def besideGraph : Graph := ⟨[beside], by decide +kernel, by decide⟩

def besideResolver : Resolver := { description := { description with targets := [beside] } }

theorem resolve_beside : SourceSet.resolve tree ⟨"."⟩ beside = .ok set := by decide +kernel

theorem exists_beside : ∃ plan,
    (besideResolver.resolve tree ⟨1, 0, 0⟩ none).1 = .ok plan ∧
      plan.Made besideGraph tree ⟨"."⟩ := by
  let descriptor : Descriptor := { descriptor with targets := [beside] }
  have hdescriptor : besideResolver.description.descriptorFor ⟨1, 0, 0⟩ = .ok descriptor := rfl
  have hgraph : descriptor.graph = .ok besideGraph :=
    Descriptor.graph_eq_ok.2 ⟨rfl, by cbv, rfl, by decide +kernel⟩
  refine PackageDescription.exists_resolve hdescriptor rfl hgraph fun declared hdeclared => ?_
  obtain rfl := List.mem_singleton.1 hdeclared
  exact ⟨set, resolve_beside⟩

end Core

namespace Resolver

/-- A library whose search directory is another one than its public headers directory searches each
of them once. -/
theorem resolve_searchesOnce_beside : ∃ plan,
    (Core.besideResolver.resolve Core.tree ⟨1, 0, 0⟩ none).1 = .ok plan ∧
      ∃ planned ∈ plan.targets,
        planned.includeDirs = [⟨"src/lib"⟩, ⟨"./src/include"⟩] ∧ planned.SearchesOnce := by
  obtain ⟨plan, hplan, hmade⟩ := Core.exists_beside
  obtain ⟨planned, hmem, hname, hset, closure, hclosure, hsurface⟩ :=
    hmade.exists_planned (List.mem_singleton_self _) Core.resolve_beside
  have hnone : Core.besideGraph.closure "core" = .ok [] := by cbv
  obtain rfl := Except.ok.inj (hnone.symm.trans hclosure)
  obtain ⟨_, -, -, hsearches⟩ := PackageDescription.exists_searches hplan
  obtain ⟨_, -, -, -, hsearch⟩ := hsearches planned hmem
  have hdirs : planned.includeDirs = [⟨"src/lib"⟩, ⟨"./src/include"⟩] := by
    rw [hsearch.includeDirs_of_record (hname ▸ hsurface)]
    decide +kernel
  obtain ⟨declared, hdeclared, -, honce⟩ :=
    resolve_searchesOnce_iff Core.besideResolver Core.tree ⟨1, 0, 0⟩ none hplan planned hmem
  obtain rfl := List.mem_singleton.1 hdeclared
  have hoffered : plan.offeredDirs planned = [⟨"./src/include"⟩] := by
    obtain ⟨_, -, -, -, hplanned, -⟩ := hmade.planned planned hmem
    rw [hname] at hplanned
    unfold Plan.offeredDirs
    rw [hset, Except.ok.inj (hplanned.symm.trans hnone)]
    rfl
  refine ⟨plan, hplan, planned, hmem, hdirs, honce.2 fun _ => ?_⟩
  rw [hoffered]
  decide +kernel

end Resolver

namespace Core

/-- Its public headers directory is searched for its own sake and as a search directory. -/
theorem searches_include_twice :
    ∃ plan, (resolver.resolve tree ⟨1, 0, 0⟩ none).1 = .ok plan ∧
      ∃ planned ∈ plan.targets,
        planned.includeDirs = [⟨"src/include"⟩, ⟨"./src/include"⟩] ∧ ¬planned.SearchesOnce := by
  obtain ⟨plan, hplan, hmade⟩ := exists_made
  obtain ⟨planned, hmem, hname, -, closure, hclosure, hsurface⟩ :=
    hmade.exists_planned (List.mem_singleton_self _) resolve_target
  obtain ⟨_, -, -, hsearches⟩ := PackageDescription.exists_searches hplan
  obtain ⟨_, -, -, -, hsearch⟩ := hsearches planned hmem
  have hnone : graph.closure "core" = .ok [] := by cbv
  obtain rfl := Except.ok.inj (hnone.symm.trans hclosure)
  have hdirs : planned.includeDirs = [⟨"src/include"⟩, ⟨"./src/include"⟩] := by
    rw [hsearch.includeDirs_of_record (hname ▸ hsurface)]
    decide +kernel
  refine ⟨plan, hplan, planned, hmem, hdirs, fun honce => ?_⟩
  unfold PlannedTarget.SearchesOnce at honce
  rw [hdirs, List.pairwise_pair] at honce
  exact honce (by decide +kernel)

end Core

end PackagePlan
