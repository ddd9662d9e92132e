/-
  The order inside the waves. A schedule says in which order the members of a wave are taken. It
  decides neither whether the source sets can be resolved (`sources_iff`) nor what they are
  (`lookup_eq`), so that all schedules lead to one plan. Only the error of a resolution that fails
  can depend on it: it is that of some failing member of the first wave that has one
  (`exists_endsAt`), and for the members taken as declared it is that of the first of them
  (`exists_endsAt_sequential`).
-/
import PackagePlan.Proofs.Plan.Ownership

namespace PackagePlan

/-- The source set of a target can be resolved. -/
def Target.Resolves (tree : Tree) (root : Path) (target : Target) : Prop :=
  ∃ set, SourceSet.resolve tree root target = .ok set

namespace Graph

variable {graph : Graph} {tree : Tree} {root : Path} {schedule : Schedule}
  {waves : List (List String)} {sources : List (String × SourceSet)}

/-- The resolution ends in a wave, with the error of one of its members: no target of an earlier
    wave fails. -/
structure EndsAt (graph : Graph) (tree : Tree) (root : Path) (waves : List (List String))
    (wave : List String) (target : Target) (error : BuildError) : Prop where
  declared : target ∈ graph.targets
  member : target.name ∈ wave
  fails : SourceSet.resolve tree root target = .error error
  earliest : ∃ before after, waves = before ++ wave :: after ∧
    ∀ other ∈ graph.targets, other.name ∈ before.flatten → other.Resolves tree root

/-! ## One target -/

theorem target?_name {target : Target} (h : target ∈ graph.targets) :
    graph.target? target.name = some target :=
  target?_eq_some_iff.2 ⟨h, rfl⟩

/-- What is resolved under the name of a declared target is its own source set. -/
theorem sourcesOf_name {target : Target} (h : target ∈ graph.targets) :
    graph.sourcesOf tree root target.name =
      (SourceSet.resolve tree root target).map fun set => (set.target, set) := by
  unfold sourcesOf
  rw [require_eq_ok.2 (target?_name h), Outcome.ok_bind]
  cases SourceSet.resolve tree root target <;> rfl

theorem exists_sourcesOf_iff {target : Target} (h : target ∈ graph.targets) :
    (∃ entry, graph.sourcesOf tree root target.name = .ok entry) ↔ target.Resolves tree root := by
  rw [sourcesOf_name h]
  constructor
  · rintro ⟨entry, hentry⟩
    obtain ⟨set, hset, -⟩ := Outcome.map_eq_ok.1 hentry
    exact ⟨set, hset⟩
  · rintro ⟨set, hset⟩
    exact ⟨_, Outcome.map_eq_ok.2 ⟨set, hset, rfl⟩⟩

/-! ## All targets -/

section
variable (hwaves : graph.waves = .ok waves)
include hwaves

/-- Where the waves have been gone through, every declared target has been resolved, under its own
    name. -/
theorem exists_lookup_of_allSources
    (h : graph.allSources tree root schedule waves = .ok sources) {target : Target}
    (htarget : target ∈ graph.targets) :
    ∃ set, sources.lookup target.name = some set ∧
      SourceSet.resolve tree root target = .ok set := by
  have hname : target.name ∈ graph.names := Target.mem_names.2 ⟨target, htarget, rfl⟩
  obtain ⟨set, hset⟩ := Option.isSome_iff_exists.1
    (Descriptor.isSome_lookup_sources hwaves h hname)
  obtain ⟨found, hfound, hresolved⟩ := resolve_of_lookup h hset
  obtain rfl := Option.some.inj (hfound.symm.trans (target?_name htarget))
  exact ⟨set, hset, hresolved⟩

theorem sources_iff :
    (∃ sources, graph.allSources tree root schedule waves = .ok sources) ↔
      ∀ target ∈ graph.targets, target.Resolves tree root := by
  constructor
  · rintro ⟨sources, h⟩ target htarget
    obtain ⟨set, -, hresolved⟩ := exists_lookup_of_allSources hwaves h htarget
    exact ⟨set, hresolved⟩
  · exact exists_allSources fun name => (flatten_waves_perm hwaves).mem_iff.1

/-- Under two schedules the same source set is found under a name. -/
theorem lookup_eq {other : Schedule} {others : List (String × SourceSet)}
    (h : graph.allSources tree root schedule waves = .ok sources)
    (hother : graph.allSources tree root other waves = .ok others) (name : String) :
    sources.lookup name = others.lookup name := by
  by_cases hname : name ∈ graph.names
  · obtain ⟨target, htarget, rfl⟩ := Target.mem_names.1 hname
    obtain ⟨set, hset, hresolved⟩ := exists_lookup_of_allSources hwaves h htarget
    obtain ⟨set', hset', hresolved'⟩ := exists_lookup_of_allSources hwaves hother htarget
    obtain rfl := Except.ok.inj (hresolved.symm.trans hresolved')
    rw [hset, hset']
  · have habsent : ∀ {taken : Schedule} {entries : List (String × SourceSet)},
        graph.allSources tree root taken waves = .ok entries → entries.lookup name = none := by
      intro taken entries hentries
      by_contra hsome
      obtain ⟨set, hset⟩ := Option.ne_none_iff_exists'.1 hsome
      obtain ⟨target, htarget, -⟩ := resolve_of_lookup hentries hset
      obtain ⟨hdeclared, rfl⟩ := target?_eq_some_iff.1 htarget
      exact hname (Target.mem_names.2 ⟨target, hdeclared, rfl⟩)
    rw [habsent h, habsent hother]

end

/-- Planning looks the source sets up by name and knows no more of them. -/
theorem planTargets_congr {standard : Option LanguageStandard}
    {others : List (String × SourceSet)} (h : ∀ name, sources.lookup name = others.lookup name)
    (index : HeaderIndex) (names : List String) :
    graph.planTargets standard sources index names =
      graph.planTargets standard others index names := by
  induction names generalizing index with
  | nil => rfl
  | cons name rest ih => simp only [planTargets, h name, ih]

/-! ## The first error -/

/-- A wave that fails has a member whose resolution fails, and the members taken before it are
    resolved. -/
theorem waveSources_error {names : List String} (hnames : ∀ name ∈ names, name ∈ graph.names)
    {error : BuildError} (h : graph.waveSources tree root names = .error error) :
    ∃ front target back, names = front ++ target.name :: back ∧ target ∈ graph.targets ∧
      SourceSet.resolve tree root target = .error error ∧
      ∀ other ∈ graph.targets, other.name ∈ front → other.Resolves tree root := by
  obtain ⟨front, name, back, rfl, hfront, herror⟩ := Outcome.first_of_mapM_eq_error h
  obtain ⟨target, htarget, rfl⟩ :=
    Target.mem_names.1 (hnames name (List.mem_append_right _ List.mem_cons_self))
  rw [sourcesOf_name htarget] at herror
  exact ⟨front, target, back, rfl, htarget, Outcome.map_eq_error.1 herror,
    fun other hother hname => (exists_sourcesOf_iff hother).1 (hfront _ hname)⟩

/-- When the source sets cannot be resolved, then because of the first wave that fails. -/
theorem first_wave_of_error {error : BuildError}
    (h : graph.allSources tree root schedule waves = .error error) :
    ∃ before wave after, waves = before ++ wave :: after ∧
      graph.waveSources tree root (schedule.arrange wave) = .error error ∧
      ∀ target ∈ graph.targets, target.name ∈ before.flatten → target.Resolves tree root := by
  obtain ⟨before, wave, after, hsplit, hbefore, herror⟩ :=
    Outcome.first_of_mapM_eq_error (Outcome.map_eq_error.1 h)
  refine ⟨before, wave, after, hsplit, herror, fun target htarget hname => ?_⟩
  obtain ⟨earlier, hearlier, hmember⟩ := List.mem_flatten.1 hname
  obtain ⟨entries, hentries⟩ := hbefore earlier hearlier
  exact (exists_sourcesOf_iff htarget).1 (Outcome.exists_of_mem_mapM hentries
    ((schedule.arrange_perm earlier).mem_iff.2 hmember))

section
variable (hwaves : graph.waves = .ok waves)
include hwaves

theorem mem_names_of_mem_wave {wave : List String} (hwave : wave ∈ waves) {name : String}
    (hname : name ∈ wave) : name ∈ graph.names :=
  (flatten_waves_perm hwaves).mem_iff.1 (List.mem_flatten.2 ⟨wave, hwave, hname⟩)

theorem exists_endsAt {error : BuildError}
    (h : graph.allSources tree root schedule waves = .error error) :
    ∃ wave target, graph.EndsAt tree root waves wave target error := by
  obtain ⟨before, wave, after, rfl, herror, hbefore⟩ := first_wave_of_error h
  have hperm := schedule.arrange_perm wave
  have hnames : ∀ name ∈ schedule.arrange wave, name ∈ graph.names := fun name hname =>
    mem_names_of_mem_wave hwaves (List.mem_append_right _ List.mem_cons_self)
      (hperm.mem_iff.1 hname)
  obtain ⟨front, target, back, hsplit, htarget, hfails, -⟩ := waveSources_error hnames herror
  refine ⟨wave, target, ?_⟩
  exact
    { declared := htarget
      member := hperm.mem_iff.1 (hsplit ▸ List.mem_append_right _ List.mem_cons_self)
      fails := hfails
      earliest := ⟨before, after, rfl, hbefore⟩ }

/-- A member of a wave stands behind the same members in the wave and in the declaration. -/
theorem mem_front_of_declared {wave : List String} (hwave : wave ∈ waves) {front back : List String}
    {target : Target} (hsplit : wave = front ++ target.name :: back)
    (htarget : target ∈ graph.targets) :
    ∃ earlier later, graph.targets = earlier ++ target :: later ∧
      ∀ other ∈ earlier, other.name ∈ wave → other.name ∈ front := by
  obtain ⟨-, rfl⟩ := waves_eq_ok.1 hwaves
  obtain ⟨p, hp⟩ := exists_filter_of_mem_wavesFrom hwave
  -- The targets of the wave are declared ones that were let through, so they split where it does.
  rw [hp] at hsplit
  obtain ⟨first, rest, hfilter, rfl, hrest⟩ := List.map_eq_append_iff.1 hsplit
  obtain ⟨found, last, rfl, hname, -⟩ := List.map_eq_cons_iff.1 hrest
  obtain ⟨ahead, behind, htargets, rfl, hbehind⟩ := List.filter_eq_append_iff.1 hfilter
  obtain ⟨skipped, later, rfl, hskipped, -, -⟩ := List.filter_eq_cons_iff.1 hbehind
  have hfound : found ∈ graph.targets := htargets ▸ by simp
  obtain rfl := Target.eq_of_name_eq graph.distinct hfound htarget hname
  refine ⟨ahead ++ skipped, later, by simp [htargets], fun other hother hmember => ?_⟩
  have hdeclared : other ∈ graph.targets := by
    rw [htargets, ← List.append_assoc]
    exact List.mem_append_left _ hother
  rw [hp] at hmember
  obtain ⟨same, hsame, hsameName⟩ := Target.mem_names.1 hmember
  obtain ⟨hsame, hthrough⟩ := List.mem_filter.1 hsame
  obtain rfl := Target.eq_of_name_eq graph.distinct hsame hdeclared hsameName
  rcases List.mem_append.1 hother with hahead | hskip
  · exact List.mem_map_of_mem (List.mem_filter.2 ⟨hahead, hthrough⟩)
  · exact absurd hthrough (hskipped same hskip)

theorem exists_endsAt_sequential {error : BuildError}
    (h : graph.allSources tree root .sequential waves = .error error) :
    ∃ wave target, graph.EndsAt tree root waves wave target error ∧
      ∃ earlier later, graph.targets = earlier ++ target :: later ∧
        ∀ other ∈ earlier, other.name ∈ wave → other.Resolves tree root := by
  obtain ⟨before, wave, after, hwave, herror, hbefore⟩ := first_wave_of_error h
  have hmem : wave ∈ waves := hwave ▸ List.mem_append_right _ List.mem_cons_self
  have hnames : ∀ name ∈ wave, name ∈ graph.names := fun name hname =>
    mem_names_of_mem_wave hwaves hmem hname
  obtain ⟨front, target, back, hsplit, htarget, hfails, hfront⟩ := waveSources_error hnames herror
  obtain ⟨earlier, later, htargets, hearlier⟩ :=
    mem_front_of_declared hwaves hmem hsplit htarget
  refine ⟨wave, target, ?_, earlier, later, htargets, fun other hother hname => ?_⟩
  · exact
      { declared := htarget
        member := hsplit ▸ List.mem_append_right _ List.mem_cons_self
        fails := hfails
        earliest := ⟨before, after, hwave, hbefore⟩ }
  · refine hfront other ?_ (hearlier other hother hname)
    rw [htargets]
    exact List.mem_append_left _ hother

end

end Graph

/-! ## The main statement -/

namespace Descriptor

variable {descriptor : Descriptor} {graph : Graph} {tree : Tree} {root : Path}
  {schedule : Schedule} {waves : List (List String)} {toolsVersion : Version}
  {platform : Option Platform}

/-- When all source sets can be resolved, every schedule leads to the same outcome. -/
theorem plan_eq_of_resolves (hwaves : graph.waves = .ok waves)
    (hall : ∀ target ∈ graph.targets, target.Resolves tree root) (other : Schedule) :
    descriptor.plan graph tree root schedule toolsVersion platform =
      descriptor.plan graph tree root other toolsVersion platform := by
  obtain ⟨sources, hsources⟩ :
      ∃ sources, graph.allSources tree root schedule waves = .ok sources :=
    (Graph.sources_iff hwaves).2 hall
  obtain ⟨others, hothers⟩ : ∃ others, graph.allSources tree root other waves = .ok others :=
    (Graph.sources_iff hwaves).2 hall
  have hlookup := Graph.lookup_eq hwaves hsources hothers
  unfold Descriptor.plan
  simp only [hwaves, hsources, hothers, Outcome.ok_bind, Graph.planTargets_congr hlookup]

theorem plan_eq_error (hwaves : graph.waves = .ok waves) {error : BuildError}
    (h : graph.allSources tree root schedule waves = .error error) :
    descriptor.plan graph tree root schedule toolsVersion platform = .error error := by
  obtain ⟨⟨order, horder⟩, -⟩ := Graph.waves_eq_ok.1 hwaves
  unfold Descriptor.plan
  rw [horder, hwaves, Outcome.ok_bind, Outcome.ok_bind, h]
  rfl

/-- What the order inside the waves can and cannot change. -/
structure ScheduleIndependent (descriptor : Descriptor) (graph : Graph) (tree : Tree)
    (root : Path) (schedule : Schedule) (waves : List (List String)) : Prop where
  /-- The source sets are there exactly when every target resolves on its own. -/
  sources_iff : (∃ sources, graph.allSources tree root schedule waves = .ok sources) ↔
    ∀ target ∈ graph.targets, target.Resolves tree root
  /-- Then the outcome is that of taking the members as declared. -/
  outcome : (∀ target ∈ graph.targets, target.Resolves tree root) →
    ∀ toolsVersion platform, descriptor.plan graph tree root schedule toolsVersion platform =
      descriptor.plan graph tree root .sequential toolsVersion platform
  /-- If the graph has passed all checks of the descriptor, that outcome is a plan. -/
  plan : descriptor.graph = .ok graph → (∀ target ∈ graph.targets, target.Resolves tree root) →
    ∀ toolsVersion platform, ∃ plan,
      descriptor.plan graph tree root schedule toolsVersion platform = .ok plan
  /-- Otherwise there is no plan, and the error is that of a failing target of the first wave that
      has one. -/
  error : ∀ error, graph.allSources tree root schedule waves = .error error →
    (∀ toolsVersion platform,
      descriptor.plan graph tree root schedule toolsVersion platform = .error error) ∧
    ∃ wave target, graph.EndsAt tree root waves wave target error
  /-- When the members are taken as declared, no target of the wave that is declared earlier
      fails. -/
  sequential_error : ∀ error, graph.allSources tree root .sequential waves = .error error →
    ∃ wave target, graph.EndsAt tree root waves wave target error ∧
      ∃ earlier later, graph.targets = earlier ++ target :: later ∧
        ∀ other ∈ earlier, other.name ∈ wave → other.Resolves tree root

/-- Whatever the order in which the members of each wave of a checked graph are taken, the source
    sets can be resolved in the same cases and lead to the same plan, and a failure is one of the
    earliest wave that has a failing target. -/
theorem plan_schedule_independent (descriptor : Descriptor) {graph : Graph}
    (hcheck : graph.check = .ok ()) (tree : Tree) (root : Path) (schedule : Schedule) :
    ∃ waves, graph.waves = .ok waves ∧
      descriptor.ScheduleIndependent graph tree root schedule waves := by
  have hbuild := Graph.exists_buildOrder_iff.2 (Graph.check_eq_ok_iff.1 hcheck)
  have hwaves := Graph.waves_eq_ok.2 ⟨hbuild, rfl⟩
  refine ⟨_, hwaves, ?_⟩
  exact
    { sources_iff := Graph.sources_iff hwaves
      outcome := fun hall _ _ => plan_eq_of_resolves hwaves hall .sequential
      plan := fun hgraph hall _ _ => exists_plan hgraph hall
      error := fun error h => ⟨fun _ _ => plan_eq_error hwaves h, Graph.exists_endsAt hwaves h⟩
      sequential_error := fun error h => Graph.exists_endsAt_sequential hwaves h }

/-- The members of every wave from the last to the first. -/
def reversed : Schedule := ⟨List.reverse, fun wave => wave.reverse_perm⟩

/-- The libraries of the first wave are missing. -/
def bareTree : Tree := { root := .directory [("app", .directory [("main.c", .file "")])] }

theorem plan_schedule_independent_commons :
    (∃ plan,
      Commons.descriptor.plan Commons.graph Commons.tree ⟨"."⟩ reversed ⟨1, 0, 0⟩ none = .ok plan ∧
      Commons.descriptor.plan Commons.graph Commons.tree ⟨"."⟩ .sequential ⟨1, 0, 0⟩ none =
        .ok plan) ∧
    ∃ waves,
      (∃ wave target, Commons.graph.EndsAt bareTree ⟨"."⟩ waves wave target
        (.missingSourceRoot "open" ⟨"././lib/"⟩)) ∧
      ∃ wave target, Commons.graph.EndsAt bareTree ⟨"."⟩ waves wave target
        (.missingSourceRoot "closed" ⟨"./lib"⟩) := by
  obtain ⟨-, hcheck, -, -⟩ := Descriptor.graph_eq_ok.1 Commons.descriptor_graph
  have hwaves : Commons.graph.waves = .ok [["closed", "open"], ["app"]] := by cbv
  constructor
  · obtain ⟨_, -, hmade⟩ :=
      plan_schedule_independent Commons.descriptor hcheck Commons.tree ⟨"."⟩ reversed
    obtain ⟨plan, hplan⟩ :=
      hmade.plan Commons.descriptor_graph Commons.resolve_all ⟨1, 0, 0⟩ none
    exact ⟨plan, hplan, hmade.outcome Commons.resolve_all ⟨1, 0, 0⟩ none ▸ hplan⟩
  · obtain ⟨waves, hsame, hbare⟩ :=
      plan_schedule_independent Commons.descriptor hcheck bareTree ⟨"."⟩ reversed
    obtain rfl := Except.ok.inj (hwaves.symm.trans hsame)
    obtain ⟨wave, target, hends, -⟩ :=
      hbare.sequential_error (.missingSourceRoot "closed" ⟨"./lib"⟩) (by decide +kernel)
    exact ⟨_, (hbare.error _ (by decide +kernel)).2, wave, target, hends⟩

end Descriptor

end PackagePlan
