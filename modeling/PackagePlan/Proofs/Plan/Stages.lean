/-
  What the stages of planning deliver. The source sets stand under the names of all targets
  (`allSources_keys`), every target is planned with its own closure and source set, in the order
  asked for (`planTargets_ok`), and a product is planned from the closures of its members
  (`planProduct_ok`). Once the graph can be ordered and the sets are there, neither planning of
  targets nor of products can fail.
-/
import PackagePlan.Proofs.Headers.Registration
import PackagePlan.Proofs.Path.Ordering
import PackagePlan.Proofs.Plan.Lookup

namespace PackagePlan

namespace Graph

variable {graph : Graph} {tree : Tree} {root : Path}

/-! ## Source sets -/

theorem require_eq_ok {name : String} {target : Target} :
    graph.require name = .ok target ↔ graph.target? name = some target := by
  unfold require
  cases graph.target? name <;> simp

theorem exists_require {name : String} (h : name ∈ graph.names) :
    ∃ target, graph.require name = .ok target := by
  obtain ⟨target, htarget⟩ := exists_target_of_mem_names h
  exact ⟨target, require_eq_ok.2 htarget⟩

/-- The source set of a target stands under its name. -/
theorem sourcesOf_eq_ok {name : String} {entry : String × SourceSet}
    (h : graph.sourcesOf tree root name = .ok entry) :
    entry.1 = name ∧ ∃ target, graph.target? name = some target ∧
      SourceSet.resolve tree root target = .ok entry.2 := by
  unfold sourcesOf at h
  obtain ⟨target, htarget, h⟩ := Outcome.bind_eq_ok.1 h
  obtain ⟨set, hset, h⟩ := Outcome.bind_eq_ok.1 h
  obtain rfl := Except.ok.inj h
  have hname := (target?_eq_some_iff.1 (require_eq_ok.1 htarget)).2
  obtain ⟨_, _, _, _, _, _, _, rfl⟩ := SourceSet.resolve_eq_ok hset
  exact ⟨hname, target, require_eq_ok.1 htarget, hset⟩

/-- For a declared name only the files can be amiss. -/
theorem sourcesOf_error {name : String} (hname : name ∈ graph.names) {error : BuildError}
    (h : graph.sourcesOf tree root name = .error error) : SourceSet.Failure error := by
  obtain ⟨target, htarget⟩ := exists_require hname
  unfold sourcesOf at h
  rcases Outcome.bind_eq_error.1 h with h | ⟨_, -, h⟩
  · rw [htarget] at h
    cases h
  rcases Outcome.bind_eq_error.1 h with h | ⟨_, -, h⟩
  · exact SourceSet.resolve_error h
  · cases h

theorem waveSources_keys {names : List String} {entries : List (String × SourceSet)}
    (h : graph.waveSources tree root names = .ok entries) : entries.map (·.1) = names := by
  have hall := Outcome.mapM_eq_ok.1 h
  clear h
  induction hall with
  | nil => rfl
  | cons hentry _ ih => rw [List.map_cons, ih, (sourcesOf_eq_ok hentry).1]

/-- The source sets stand under the names of the waves, in the order in which they were taken. -/
theorem allSources_keys {schedule : Schedule} {waves : List (List String)}
    {sources : List (String × SourceSet)}
    (h : graph.allSources tree root schedule waves = .ok sources) :
    sources.map (·.1) = (waves.map schedule.arrange).flatten := by
  unfold allSources at h
  obtain ⟨lists, hlists, rfl⟩ := Outcome.map_eq_ok.1 h
  have hall := Outcome.mapM_eq_ok.1 hlists
  clear h hlists
  induction hall with
  | nil => rfl
  | cons hwave _ ih =>
    rw [List.flatten_cons, List.map_append, ih, waveSources_keys hwave, List.map_cons,
      List.flatten_cons]

theorem mem_arranged {schedule : Schedule} {waves : List (List String)} {name : String} :
    name ∈ (waves.map schedule.arrange).flatten ↔ name ∈ waves.flatten := by
  simp only [List.mem_flatten, List.mem_map, exists_exists_and_eq_and,
    (schedule.arrange_perm _).mem_iff]

theorem allSources_error {schedule : Schedule} {waves : List (List String)}
    (hnames : ∀ name ∈ waves.flatten, name ∈ graph.names) {error : BuildError}
    (h : graph.allSources tree root schedule waves = .error error) : SourceSet.Failure error := by
  unfold allSources at h
  obtain ⟨wave, hwave, h⟩ := Outcome.exists_of_mapM_eq_error (Outcome.map_eq_error.1 h)
  obtain ⟨name, hname, h⟩ := Outcome.exists_of_mapM_eq_error h
  refine sourcesOf_error (hnames name ?_) h
  exact List.mem_flatten.2 ⟨wave, hwave, (schedule.arrange_perm wave).mem_iff.1 hname⟩

/-! ## Planned targets -/

/-- A target as it is planned under a name: with the closure of that name and its own source set. -/
def PlannedAs (graph : Graph) (sources : List (String × SourceSet))
    (standard : Option LanguageStandard) (name : String) (planned : PlannedTarget) : Prop :=
  ∃ target set closure dirs, graph.target? name = some target ∧ sources.lookup name = some set ∧
    graph.closure name = .ok closure ∧ planned = .of target set closure dirs standard

section
variable {standard : Option LanguageStandard} {sources : List (String × SourceSet)}

theorem PlannedAs.name_eq {name : String} {planned : PlannedTarget}
    (h : PlannedAs graph sources standard name planned) : planned.name = name := by
  obtain ⟨target, _, _, _, htarget, _, _, rfl⟩ := h
  exact (target?_eq_some_iff.1 htarget).2

theorem PlannedAs.closure_eq {name : String} {planned : PlannedTarget}
    (h : PlannedAs graph sources standard name planned) :
    graph.closure name = .ok planned.closure := by
  obtain ⟨_, _, _, _, _, _, hclosure, rfl⟩ := h
  exact hclosure

/-- One step of planning: a target is registered, and its include directories are read off. -/
theorem planTargets_cons_ok {index full : HeaderIndex} {name : String} {rest : List String}
    {planned : List PlannedTarget}
    (h : graph.planTargets standard sources index (name :: rest) = .ok (full, planned)) :
    ∃ target set closure dirs others, graph.target? name = some target ∧
      sources.lookup name = some set ∧ graph.closure name = .ok closure ∧
      (index.register target set closure).includeDirs name = .ok dirs ∧
      graph.planTargets standard sources (index.register target set closure) rest =
        .ok (full, others) ∧
      planned = .of target set closure dirs standard :: others := by
  rw [planTargets] at h
  obtain ⟨target, htarget, h⟩ := Outcome.bind_eq_ok.1 h
  split at h
  · cases h
  next set hset =>
  obtain ⟨closure, hclosure, h⟩ := Outcome.bind_eq_ok.1 h
  obtain ⟨dirs, hdirs, h⟩ := Outcome.bind_eq_ok.1 h
  obtain ⟨⟨grown, others⟩, hothers, h⟩ := Outcome.bind_eq_ok.1 h
  obtain ⟨rfl, rfl⟩ := Prod.mk.inj (Except.ok.inj h)
  exact ⟨target, set, closure, dirs, others, require_eq_ok.1 htarget, hset, hclosure, hdirs,
    hothers, rfl⟩

/-- Planning plans each target asked for, in order. -/
theorem planTargets_ok {index full : HeaderIndex} {names : List String}
    {planned : List PlannedTarget}
    (h : graph.planTargets standard sources index names = .ok (full, planned)) :
    List.Forall₂ (PlannedAs graph sources standard) names planned := by
  induction names generalizing index planned with
  | nil =>
    obtain ⟨rfl, rfl⟩ := Prod.mk.inj (Except.ok.inj h)
    exact .nil
  | cons name rest ih =>
    obtain ⟨target, set, closure, dirs, others, htarget, hset, hclosure, -, hothers, rfl⟩ :=
      planTargets_cons_ok h
    exact .cons ⟨target, set, closure, dirs, htarget, hset, hclosure, rfl⟩ (ih hothers)

/-- Planning succeeds for declared names whose source sets are there. -/
theorem exists_planTargets {order : List String} (horder : graph.buildOrder = .ok order)
    {names : List String}
    (h : ∀ name ∈ names, name ∈ graph.names ∧ (sources.lookup name).isSome = true)
    (index : HeaderIndex) :
    ∃ result, graph.planTargets standard sources index names = .ok result := by
  induction names generalizing index with
  | nil => exact ⟨_, rfl⟩
  | cons name rest ih =>
    obtain ⟨⟨hname, hlookup⟩, hrest⟩ := List.forall_mem_cons.1 h
    obtain ⟨target, htarget⟩ := exists_require hname
    obtain ⟨set, hset⟩ := Option.isSome_iff_exists.1 hlookup
    obtain ⟨closure, hclosure⟩ := exists_closure horder hname
    obtain rfl := (target?_eq_some_iff.1 (require_eq_ok.1 htarget)).2
    obtain ⟨dirs, hdirs⟩ := index.exists_includeDirs_register target set closure
    obtain ⟨⟨full, planned⟩, hplanned⟩ := ih hrest (index.register target set closure)
    rw [planTargets]
    refine ⟨(full, .of target set closure dirs standard :: planned), ?_⟩
    refine Outcome.bind_eq_ok.2 ⟨target, htarget, ?_⟩
    rw [hset]
    exact Outcome.bind_eq_ok.2 ⟨closure, hclosure, Outcome.bind_eq_ok.2 ⟨dirs, hdirs,
      Outcome.bind_eq_ok.2 ⟨(full, planned), hplanned, rfl⟩⟩⟩

end

/-! ## Planned products -/

theorem checkProducts_eq_ok {products : List Product} (h : graph.checkProducts products = .ok ()) :
    ∀ product ∈ products, ∀ member ∈ product.targets, member ∈ graph.names := by
  have hnone : graph.firstProductFault? [] products = none := by
    unfold checkProducts at h
    split at h
    · cases h
    · assumption
  clear h
  generalize [] = seen at hnone
  induction products generalizing seen with
  | nil => exact fun _ h => nomatch h
  | cons product rest ih =>
    rw [firstProductFault?] at hnone
    split at hnone
    · cases hnone
    split at hnone
    · cases hnone
    split at hnone
    · cases hnone
    next hfind =>
    refine List.forall_mem_cons.2 ⟨fun member hmember => ?_, ih _ hnone⟩
    have := List.find?_eq_none.1 hfind member hmember
    rwa [Bool.not_eq_true', Bool.not_eq_false, declares_iff] at this

theorem mem_flatten_closures {members : List String} {closures : List (List String)}
    (h : List.Forall₂ (fun member closure => graph.closure member = .ok closure) members closures)
    {name : String} :
    name ∈ closures.flatten ↔ ∃ member ∈ members, Target.Needs graph.targets member name := by
  induction h with
  | nil => simp
  | cons hclosure _ ih =>
    rw [List.flatten_cons, List.mem_append, ih, mem_closure_iff hclosure]
    simp only [List.mem_cons, exists_eq_or_imp]

/-- A product is planned with its members and all they need, and with the public headers of just
    these targets. -/
theorem planProduct_ok {order : List String} {targets : List PlannedTarget} {product : Product}
    {planned : PlannedProduct} (h : graph.planProduct order targets product = .ok planned) :
    planned.name = product.name ∧ planned.targets = product.targets ∧
      (∀ name, name ∈ planned.closure ↔ name ∈ order ∧
        (name ∈ product.targets ∨ ∃ member ∈ product.targets,
          Target.Needs graph.targets member name)) ∧
      planned.closure.Sublist order ∧
      planned.publicHeaders = Path.sorted ((targets.filter fun target =>
        decide (target.name ∈ planned.closure)).flatMap PlannedTarget.publicHeaders) := by
  unfold planProduct at h
  obtain ⟨closures, hclosures, h⟩ := Outcome.bind_eq_ok.1 h
  obtain rfl := Except.ok.inj h
  refine ⟨rfl, rfl, fun name => ?_, List.filter_sublist, rfl⟩
  rw [List.mem_filter, decide_eq_true_eq, List.mem_append,
    mem_flatten_closures (Outcome.mapM_eq_ok.1 hclosures)]

theorem exists_planProduct {order : List String} (horder : graph.buildOrder = .ok order)
    (targets : List PlannedTarget) {product : Product}
    (h : ∀ member ∈ product.targets, member ∈ graph.names) :
    ∃ planned, graph.planProduct order targets product = .ok planned := by
  cases hclosures : product.targets.mapM graph.closure with
  | ok closures => exact ⟨_, Outcome.bind_eq_ok.2 ⟨closures, hclosures, rfl⟩⟩
  | error error =>
    obtain ⟨member, hmember, herror⟩ := Outcome.exists_of_mapM_eq_error hclosures
    obtain ⟨closure, hclosure⟩ := exists_closure horder (h member hmember)
    rw [hclosure] at herror
    cases herror

end Graph

end PackagePlan
