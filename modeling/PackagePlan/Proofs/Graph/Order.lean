/-
  Which packages can be ordered. The check, the build order and the waves succeed on the same
  graphs: those whose dependencies are all declared and where no target needs itself. A build
  order that exists lists every declared target once, each after everything it needs.
-/
import PackagePlan.Proofs.Graph.Waves

namespace PackagePlan.Graph

open Target (Acyclic Needs Resolved Settled)

variable {graph : Graph}

theorem targets_of_ofTargets {targets : List Target} (h : ofTargets targets = .ok graph) :
    graph.targets = targets := by
  unfold ofTargets at h
  split at h
  · cases h
  · exact (congrArg Graph.targets (Except.ok.inj h)).symm

theorem firstFault?_eq_none_iff {seen : List String} {targets : List Target} :
    firstFault? seen targets = none ↔
      (∀ target ∈ targets, target.isValid = true) ∧ (Target.names targets).Nodup ∧
        ∀ name ∈ Target.names targets, name ∉ seen := by
  constructor
  · intro h
    exact ⟨valid_of_firstFault? h, distinct_of_firstFault? h⟩
  · intro h
    obtain ⟨hvalid, hnodup, hfresh⟩ := h
    induction targets generalizing seen with
    | nil => rfl
    | cons first rest ih =>
      obtain ⟨hfirst, hvalid⟩ := List.forall_mem_cons.1 hvalid
      obtain ⟨hnew, hnodup⟩ := List.nodup_cons.1 hnodup
      obtain ⟨hunseen, hfresh⟩ := List.forall_mem_cons.1 hfresh
      have hfault : first.fault? = none := by simpa [Target.isValid] using hfirst
      rw [firstFault?, hfault]
      dsimp only
      rw [if_neg hunseen]
      refine ih hvalid hnodup fun name hname hseen => ?_
      rcases List.mem_cons.1 hseen with rfl | hseen
      · exact hnew hname
      · exact hfresh name hname hseen

/-- The targets of a graph are accepted again, and no other graph comes of them. -/
theorem ofTargets_eq_ok_iff {targets : List Target} :
    ofTargets targets = .ok graph ↔ graph.targets = targets := by
  constructor
  · exact targets_of_ofTargets
  · intro h
    have hnone : firstFault? [] targets = none := by
      rw [← h, firstFault?_eq_none_iff]
      exact ⟨graph.valid, graph.distinct, fun _ _ => List.not_mem_nil⟩
    unfold ofTargets
    split
    · next error herror =>
      rw [hnone] at herror
      cases herror
    · subst h
      rfl

/-! ## The order -/

theorem asked_root {name : String} (h : name ∈ graph.names) : Asked graph "" [] name :=
  .inl ⟨rfl, h⟩

/-- A build order settles every target. -/
theorem settled_buildOrder {order : List String} (h : graph.buildOrder = .ok order) :
    Settled graph.targets order ∧ ∀ name ∈ graph.names, name ∈ order := by
  unfold buildOrder at h
  obtain ⟨hend, _, hall⟩ := (Underway.start graph).visit_ok (fun _ hname => asked_root hname) h
  exact ⟨hend.settled, hall⟩

theorem mem_buildOrder_iff {order : List String} (h : graph.buildOrder = .ok order)
    {name : String} : name ∈ order ↔ name ∈ graph.names := by
  obtain ⟨hsettled, hall⟩ := settled_buildOrder h
  exact ⟨hsettled.declared name, hall name⟩

theorem buildOrder_perm {order : List String} (h : graph.buildOrder = .ok order) :
    order.Perm graph.names :=
  (List.perm_ext_iff_of_nodup (settled_buildOrder h).1.nodup graph.distinct).2
    fun _ => mem_buildOrder_iff h

/-- The walk from the declared names can be cut between any two of them. -/
theorem buildOrder_cut {front back order : List String} (hnames : graph.names = front ++ back)
    (h : graph.buildOrder = .ok order) :
    ∃ middle, visit "" graph.targets [] front [] = .ok middle ∧
      Underway graph graph.targets [] middle ∧
      visit "" graph.targets [] back middle = .ok order ∧ middle <+: order := by
  unfold buildOrder at h
  rw [hnames, visit_append_names] at h
  obtain ⟨middle, hfront, hback⟩ := Outcome.bind_eq_ok.1 h
  have hdeclared : ∀ name ∈ front, Asked graph "" [] name := fun name hname =>
    asked_root (hnames ▸ List.mem_append_left back hname)
  have hothers : ∀ name ∈ back, Asked graph "" [] name := fun name hname =>
    asked_root (hnames ▸ List.mem_append_right front hname)
  obtain ⟨hmiddle, -, -⟩ := (Underway.start graph).visit_ok hdeclared hfront
  exact ⟨middle, hfront, hmiddle, hback, (hmiddle.visit_ok hothers hback).2.1⟩

/-- A build order that cannot be made fails for a reason. -/
theorem buildOrder_error {error : BuildError} (h : graph.buildOrder = .error error) :
    Blamed graph.targets error := by
  unfold buildOrder at h
  exact (Underway.start graph).visit_error (fun _ hname => asked_root hname) h

theorem exists_buildOrder_iff :
    (∃ order, graph.buildOrder = .ok order) ↔ Resolved graph.targets ∧ Acyclic graph.targets := by
  constructor
  · rintro ⟨order, h⟩
    obtain ⟨hsettled, hall⟩ := settled_buildOrder h
    exact ⟨Target.resolved_of_settled graph.distinct hsettled hall,
      Target.acyclic_of_settled graph.distinct hsettled hall⟩
  · rintro ⟨hresolved, hacyclic⟩
    cases horder : graph.buildOrder with
    | ok order => exact ⟨order, rfl⟩
    | error error =>
      cases buildOrder_error horder with
      | cycle real =>
        obtain ⟨name, hneeds⟩ := real.needs
        exact absurd hneeds (hacyclic name hneeds.declared)
      | unknown undeclared lists =>
        obtain ⟨target, hmem, _, hdep⟩ := lists
        exact absurd (hresolved target hmem _ hdep) undeclared

/-! ## The check and the waves -/

theorem not_declared_of_find? {listed : List String} {name : String}
    (h : listed.find? (fun name => !graph.declares name) = some name) : name ∉ graph.names := by
  have hname := List.find?_some h
  rwa [Bool.not_eq_true', ← Bool.not_eq_true, declares_iff] at hname

theorem firstUnresolved?_eq_none_iff {targets : List Target} :
    graph.firstUnresolved? targets = none ↔
      ∀ target ∈ targets, ∀ name ∈ target.dependencies, name ∈ graph.names := by
  induction targets with
  | nil => exact ⟨fun _ _ h => (nomatch h), fun _ => rfl⟩
  | cons first rest ih =>
    rw [List.forall_mem_cons, ← ih, firstUnresolved?]
    split
    · next name hfind =>
      refine ⟨fun h => (nomatch h), fun h => ?_⟩
      exact absurd (h.1 name (List.mem_of_find?_eq_some hfind)) (not_declared_of_find? hfind)
    · next hfind =>
      refine ⟨fun h => ⟨fun name hname => ?_, h⟩, fun h => h.2⟩
      have := List.find?_eq_none.1 hfind name hname
      rwa [Bool.not_eq_true', Bool.not_eq_false, declares_iff] at this

theorem firstUnresolved?_targets_eq_none_iff :
    graph.firstUnresolved? graph.targets = none ↔ Resolved graph.targets :=
  firstUnresolved?_eq_none_iff

theorem check_eq_ok_iff :
    graph.check = .ok () ↔ Resolved graph.targets ∧ Acyclic graph.targets := by
  rw [← exists_buildOrder_iff]
  unfold check
  split
  · next error hfirst =>
    refine ⟨fun h => (nomatch h), fun h => ?_⟩
    have hresolved := firstUnresolved?_targets_eq_none_iff.2 (exists_buildOrder_iff.1 h).1
    rw [hfirst] at hresolved
    cases hresolved
  · rw [Outcome.map_eq_ok]
    exact ⟨fun ⟨order, h, _⟩ => ⟨order, h⟩, fun ⟨order, h⟩ => ⟨order, h, rfl⟩⟩

theorem blamed_of_firstUnresolved? {targets : List Target} {error : BuildError}
    (hknown : ∀ target ∈ targets, target ∈ graph.targets)
    (h : graph.firstUnresolved? targets = some error) : Blamed graph.targets error := by
  induction targets with
  | nil => cases h
  | cons first rest ih =>
    obtain ⟨hfirst, hrest⟩ := List.forall_mem_cons.1 hknown
    rw [firstUnresolved?] at h
    split at h
    · next name hfind =>
      obtain rfl := Option.some.inj h
      exact .unknown (not_declared_of_find? hfind)
        ⟨first, hfirst, rfl, List.mem_of_find?_eq_some hfind⟩
    · exact ih hrest h

/-- The check only fails for a reason. -/
theorem blamed_of_check {error : BuildError} (h : graph.check = .error error) :
    Blamed graph.targets error := by
  unfold check at h
  split at h
  · next fault hfault =>
    obtain rfl := Except.error.inj h
    exact blamed_of_firstUnresolved? (fun _ htarget => htarget) hfault
  · exact buildOrder_error (Outcome.map_eq_error.1 h)

theorem waves_eq_ok {waves : List (List String)} :
    graph.waves = .ok waves ↔
      (∃ order, graph.buildOrder = .ok order) ∧ wavesFrom [] graph.targets = waves := by
  unfold Graph.waves
  rw [Outcome.bind_eq_ok]
  exact ⟨fun ⟨order, h, hwaves⟩ => ⟨⟨order, h⟩, Except.ok.inj hwaves⟩,
    fun ⟨⟨order, h⟩, hwaves⟩ => ⟨order, h, congrArg _ hwaves⟩⟩

theorem waves_eq_error {error : BuildError} :
    graph.waves = .error error ↔ graph.buildOrder = .error error := by
  unfold Graph.waves
  rw [Outcome.bind_eq_error]
  exact ⟨fun h => h.resolve_right nofun, .inl⟩

/-- The waves hold every declared target once. -/
theorem flatten_waves_perm {waves : List (List String)} (h : graph.waves = .ok waves) :
    waves.flatten.Perm graph.names := by
  obtain ⟨⟨order, horder⟩, rfl⟩ := waves_eq_ok.1 h
  obtain ⟨hsettled, hall⟩ := settled_buildOrder horder
  exact (Waiting.start graph).flatten_perm hsettled hall

/-! ## The main statement -/

/-- The build order, the check and the waves of an accepted list of targets succeed in the same
    cases: when every dependency is declared and no target needs itself. The build order then
    lists every declared name once, with all that a target needs in front of it, and the waves
    hold every declared name once. -/
theorem buildable_iff_resolved_acyclic {targets : List Target}
    (h : ofTargets targets = .ok graph) :
    ((∃ order, graph.buildOrder = .ok order) ↔ Resolved targets ∧ Acyclic targets) ∧
    (graph.check = .ok () ↔ Resolved targets ∧ Acyclic targets) ∧
    ((∃ waves, graph.waves = .ok waves) ↔ Resolved targets ∧ Acyclic targets) ∧
    (∀ order, graph.buildOrder = .ok order →
      order.Nodup ∧ (∀ name, name ∈ order ↔ name ∈ Target.names targets) ∧
        ∀ pre a post, order = pre ++ a :: post → ∀ b, Needs targets a b → b ∈ pre) ∧
    ∀ waves, graph.waves = .ok waves → waves.flatten.Perm (Target.names targets) := by
  obtain rfl := targets_of_ofTargets h
  refine ⟨exists_buildOrder_iff, check_eq_ok_iff, ?_, ?_, fun waves => flatten_waves_perm⟩
  · rw [← exists_buildOrder_iff]
    exact ⟨fun ⟨_, hwaves⟩ => (waves_eq_ok.1 hwaves).1,
      fun horder => ⟨_, waves_eq_ok.2 ⟨horder, rfl⟩⟩⟩
  · intro order horder
    have hsettled := (settled_buildOrder horder).1
    refine ⟨hsettled.nodup, fun name => mem_buildOrder_iff horder, ?_⟩
    intro pre a post hsplit b hneeds
    exact hsettled.mem_before_of_needs graph.distinct hneeds hsplit

/-- Four targets of which the first needs the third along two ways and names one of them twice. -/
def diamond : List Target := [
  { name := "app", dependencies := ["ui", "net", "ui"], path := ⟨"app"⟩ },
  { name := "ui", dependencies := ["core"], path := ⟨"ui"⟩ },
  { name := "core", path := ⟨"core"⟩ },
  { name := "net", dependencies := ["core"], path := ⟨"net"⟩ }]

theorem settled_diamond : Settled diamond ["core", "net", "ui", "app"] := by
  have hcore : Settled diamond ["core"] :=
    @Settled.snoc diamond [] diamond[2] .nil (by decide) (by decide) (by decide)
  have hnet : Settled diamond ["core", "net"] :=
    @Settled.snoc diamond ["core"] diamond[3] hcore (by decide) (by decide) (by decide)
  have hui : Settled diamond ["core", "net", "ui"] :=
    @Settled.snoc diamond ["core", "net"] diamond[1] hnet (by decide) (by decide) (by decide)
  exact @Settled.snoc diamond ["core", "net", "ui"] diamond[0] hui (by decide) (by decide)
    (by decide)

theorem buildable_diamond : ∃ graph, ofTargets diamond = .ok graph ∧ graph.check = .ok () ∧
    ∃ order, graph.buildOrder = .ok order ∧
      ∀ pre post, order = pre ++ "app" :: post → "core" ∈ pre := by
  have haccepted : (ofTargets diamond).isOk = true := by decide +kernel
  obtain ⟨graph, hgraph⟩ := Outcome.isOk_iff.1 haccepted
  obtain ⟨hbuild, hcheck, _, horder, _⟩ := buildable_iff_resolved_acyclic hgraph
  have hsound : Resolved diamond ∧ Acyclic diamond :=
    ⟨Target.resolved_of_settled (by decide) settled_diamond (by decide),
      Target.acyclic_of_settled (by decide) settled_diamond (by decide)⟩
  obtain ⟨order, hmade⟩ := hbuild.2 hsound
  refine ⟨graph, hgraph, hcheck.2 hsound, order, hmade, fun pre post hsplit => ?_⟩
  have happ : Target.DependsOn diamond "app" "ui" := ⟨diamond[0], by decide, rfl, by decide⟩
  have hui : Target.DependsOn diamond "ui" "core" := ⟨diamond[1], by decide, rfl, by decide⟩
  exact (horder order hmade).2.2 pre "app" post hsplit "core" (.tail (.single happ) hui)

end PackagePlan.Graph
