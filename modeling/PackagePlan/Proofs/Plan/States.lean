/-
  What the states of failure mean. A resolution first checks what is declared, without a look at the
  files (`checked`), and what fails behind that fails because of the files (`resolve_eq_error_iff`).
  Each stage leads to few states (`Stage.states`), so a state leads back to its stage: the states
  for a variant, for a platform and for a cycle are settled by the description, the tools version
  and the platform (`resolve_failsAs_invalidVariant_iff` and those behind it).
-/
import PackagePlan.Proofs.Plan.Consistency

namespace PackagePlan

open ResolutionState (ofError ofOutcome)
open Target (Needs Resolved)

/-! ## Errors and states -/

/-- The computation ends in an error that leads to the state. -/
def FailsAs {α : Type} (x : Except BuildError α) (state : ResolutionState) : Prop :=
  ∃ error, x = .error error ∧ ofError error = state

/-- The states that the errors of a stage lead to. -/
def Stage.states : Stage → List ResolutionState
  | selection => [.invalidVariant, .failed]
  | application => [.unresolvedReference]
  | platform => [.platformUnsupported]
  | targets => [.failed]
  | dependencies => [.unresolvedReference, .cycleDetected]
  | products => [.unresolvedReference, .failed]
  | roots => [.failed]
  | sources => [.failed]

theorem Stage.Fails.ofError_mem {stage : Stage} {error : BuildError} (h : stage.Fails error) :
    ofError error ∈ stage.states := by
  cases h with
  | files h => cases h <;> exact List.mem_singleton_self _
  | _ => simp [ofError, states]

namespace FailsAs

variable {α β : Type} {x : Except BuildError α} {state : ResolutionState}

theorem mem_states (h : FailsAs x state) {stage : Stage}
    (hx : ∀ error, x = .error error → stage.Fails error) : state ∈ stage.states := by
  obtain ⟨error, herror, rfl⟩ := h
  exact (hx error herror).ofError_mem

theorem bind_iff {f : α → Except BuildError β} :
    FailsAs (x >>= f) state ↔ FailsAs x state ∨ ∃ a, x = .ok a ∧ FailsAs (f a) state := by
  unfold FailsAs
  simp only [Outcome.bind_eq_error]
  constructor
  · intro h
    obtain ⟨error, hx | ⟨a, ha, hf⟩, hstate⟩ := h
    · exact .inl ⟨error, hx, hstate⟩
    · exact .inr ⟨a, ha, error, hf, hstate⟩
  · intro h
    rcases h with ⟨error, hx, hstate⟩ | ⟨a, ha, error, hf, hstate⟩
    · exact ⟨error, .inl hx, hstate⟩
    · exact ⟨error, .inr ⟨a, ha, hf⟩, hstate⟩

end FailsAs

namespace ResolutionState

variable {outcome : Except BuildError Plan}

theorem isFailure_ofError (error : BuildError) : (ofError error).isFailure = true := by
  cases error <;> rfl

theorem ofOutcome_eq_ready_iff : ofOutcome outcome = .ready ↔ ∃ plan, outcome = .ok plan := by
  cases outcome with
  | ok plan => exact ⟨fun _ => ⟨plan, rfl⟩, fun _ => rfl⟩
  | error error =>
    refine ⟨fun h => ?_, fun ⟨plan, h⟩ => nomatch h⟩
    have hfailure := isFailure_ofError error
    rw [show ofError error = .ready from h] at hfailure
    cases hfailure

theorem isFailure_ofOutcome_iff :
    (ofOutcome outcome).isFailure = true ↔ ∃ error, outcome = .error error := by
  cases outcome with
  | ok plan => exact ⟨fun h => (nomatch h), fun ⟨error, h⟩ => nomatch h⟩
  | error error => exact ⟨fun _ => ⟨error, rfl⟩, fun _ => isFailure_ofError error⟩

theorem ofOutcome_eq_iff {state : ResolutionState} (hstate : state.isFailure = true) :
    ofOutcome outcome = state ↔ FailsAs outcome state := by
  cases outcome with
  | ok plan =>
    refine ⟨fun h => ?_, fun ⟨error, h, _⟩ => nomatch h⟩
    rw [← h] at hstate
    cases hstate
  | error error =>
    exact ⟨fun h => ⟨error, rfl, h⟩, fun ⟨other, h, hother⟩ => Except.error.inj h ▸ hother⟩

end ResolutionState

/-! ## What is declared and what the files hold -/

/-- The platform that is asked for, or the lack of one, is not what the variant allows. -/
def Descriptor.Refuses (descriptor : Descriptor) : Option Platform → Prop
  | some platform => ∃ minimum,
      descriptor.platforms.minimum? platform.os = some minimum ∧ platform.version < minimum
  | none => descriptor.platforms.toList ≠ []

theorem Descriptor.checkPlatform_eq_ok_iff {descriptor : Descriptor} {platform : Option Platform} :
    descriptor.checkPlatform platform = .ok () ↔ ¬descriptor.Refuses platform := by
  cases platform with
  | none =>
    have hempty : descriptor.platforms.isEmpty = true ↔ descriptor.platforms.toList = [] :=
      List.isEmpty_iff
    unfold checkPlatform Refuses
    rw [not_not, ← hempty]
    dsimp only
    split
    · next h => simp [h]
    · next h => simp [h]
  | some platform =>
    unfold checkPlatform Refuses PlatformConstraints.check
    dsimp only
    cases descriptor.platforms.minimum? platform.os with
    | none => simp
    | some minimum =>
      dsimp only
      split
      · next h => simp [h]
      · next h => simp [h]

theorem Descriptor.checkPlatform_failsAs_iff {descriptor : Descriptor}
    {platform : Option Platform} :
    FailsAs (descriptor.checkPlatform platform) .platformUnsupported ↔
      descriptor.Refuses platform := by
  constructor
  · intro h
    obtain ⟨error, herror, -⟩ := h
    by_contra hallowed
    rw [checkPlatform_eq_ok_iff.2 hallowed] at herror
    cases herror
  · intro h
    cases hcheck : descriptor.checkPlatform platform with
    | ok _ => exact absurd h (checkPlatform_eq_ok_iff.1 hcheck)
    | error error =>
      exact ⟨error, rfl, List.mem_singleton.1 (checkPlatform_error hcheck).ofError_mem⟩

namespace Graph

variable {graph : Graph}

/-- A check that fails has met an undeclared dependency, or a cycle where all are declared. -/
theorem check_error_cases {error : BuildError} (h : graph.check = .error error) :
    ¬Resolved graph.targets ∧ ofError error = .unresolvedReference ∨
      Resolved graph.targets ∧ (∃ name, Needs graph.targets name name) ∧
        ofError error = .cycleDetected := by
  unfold check at h
  split at h
  · next fault hfault =>
    obtain rfl := Except.error.inj h
    left
    refine ⟨fun hresolved => ?_, ?_⟩
    · rw [firstUnresolved?_targets_eq_none_iff.2 hresolved] at hfault
      cases hfault
    · obtain ⟨name, owner, rfl⟩ := firstUnresolved?_error hfault
      rfl
  · next hnone =>
    have hresolved := firstUnresolved?_targets_eq_none_iff.1 hnone
    right
    cases buildOrder_error (Outcome.map_eq_error.1 h) with
    | cycle real => exact ⟨hresolved, real.needs, rfl⟩
    | unknown undeclared lists =>
      obtain ⟨target, hmem, -, hdep⟩ := lists
      exact absurd (hresolved target hmem _ hdep) undeclared

/-- The check finds a cycle when every dependency is declared and some target needs itself. -/
theorem check_failsAs_iff : FailsAs graph.check .cycleDetected ↔
    Resolved graph.targets ∧ ∃ name, Needs graph.targets name name := by
  constructor
  · intro h
    obtain ⟨error, herror, hstate⟩ := h
    rcases check_error_cases herror with ⟨-, hunresolved⟩ | ⟨hresolved, hcycle, -⟩
    · rw [hunresolved] at hstate
      cases hstate
    · exact ⟨hresolved, hcycle⟩
  · intro h
    obtain ⟨hresolved, name, hneeds⟩ := h
    cases hcheck : graph.check with
    | ok _ => exact absurd hneeds ((check_eq_ok_iff.1 hcheck).2 name hneeds.declared)
    | error error =>
      rcases check_error_cases hcheck with ⟨hunresolved, -⟩ | ⟨-, -, hstate⟩
      · exact absurd hresolved hunresolved
      · exact ⟨error, rfl, hstate⟩

end Graph

/-- The states that the errors of the graph lead to. -/
theorem Descriptor.mem_of_graph_failsAs {descriptor : Descriptor} {state : ResolutionState}
    (h : FailsAs descriptor.graph state) :
    state ∈ [ResolutionState.unresolvedReference, .cycleDetected, .failed] := by
  have hsubset : ∀ stage ∈ [Stage.targets, .dependencies, .products, .roots],
      ∀ state ∈ stage.states,
        state ∈ [ResolutionState.unresolvedReference, .cycleDetected, .failed] := by decide
  obtain ⟨error, herror, rfl⟩ := h
  obtain ⟨stage, hstage, hfails⟩ := graph_error herror
  exact hsubset stage hstage _ hfails.ofError_mem

theorem Descriptor.graph_failsAs_iff {descriptor : Descriptor} :
    FailsAs descriptor.graph .cycleDetected ↔
      (∀ target ∈ descriptor.targets, target.isValid = true) ∧
        (Target.names descriptor.targets).Nodup ∧ Resolved descriptor.targets ∧
          ∃ name, Needs descriptor.targets name name := by
  unfold Descriptor.graph
  rw [FailsAs.bind_iff]
  constructor
  · intro h
    rcases h with h | ⟨graph, hgraph, h⟩
    · cases List.mem_singleton.1 (h.mem_states fun _ => Graph.ofTargets_error)
    rw [← Graph.targets_of_ofTargets hgraph]
    rcases FailsAs.bind_iff.1 h with h | ⟨_, -, h⟩
    · exact ⟨graph.valid, graph.distinct, Graph.check_failsAs_iff.1 h⟩
    rcases FailsAs.bind_iff.1 h with h | ⟨_, -, h⟩
    · have hstates := h.mem_states fun _ => Graph.checkProducts_error
      simp [Stage.states] at hstates
    rcases FailsAs.bind_iff.1 h with h | ⟨_, -, h⟩
    · cases List.mem_singleton.1 (h.mem_states fun _ => Graph.checkRoots_error)
    · obtain ⟨error, herror, -⟩ := h
      cases herror
  · intro h
    obtain ⟨hvalid, hnodup, hcycle⟩ := h
    -- Valid targets with names of their own are a graph as they stand.
    let graph : Graph := ⟨descriptor.targets, hvalid, hnodup⟩
    have hcheck : FailsAs graph.check .cycleDetected := Graph.check_failsAs_iff.2 hcycle
    exact .inr ⟨graph, Graph.ofTargets_eq_ok_iff.2 rfl, FailsAs.bind_iff.2 (.inl hcheck)⟩

/-! ## A resolution without a look at the files -/

namespace PackageDescription

variable {description : PackageDescription} {descriptor : Descriptor} {tree : Tree} {root : Path}
  {schedule : Schedule} {toolsVersion : Version} {platform : Option Platform}

/-- The stages of a resolution that do not look at the files. -/
def checked (description : PackageDescription) (toolsVersion : Version)
    (platform : Option Platform) : Except BuildError (Descriptor × Graph) := do
  let descriptor ← description.descriptorFor toolsVersion
  descriptor.checkPlatform platform
  let graph ← descriptor.graph
  return (descriptor, graph)

theorem resolve_eq_bind :
    description.resolve tree root schedule toolsVersion platform =
      description.checked toolsVersion platform >>= fun made =>
        made.1.plan made.2 tree root schedule toolsVersion platform := by
  unfold resolve checked
  simp only [bind_assoc, pure_bind]

theorem graph_of_checked {graph : Graph}
    (h : description.checked toolsVersion platform = .ok (descriptor, graph)) :
    descriptor.graph = .ok graph := by
  unfold checked at h
  obtain ⟨found, -, h⟩ := Outcome.bind_eq_ok.1 h
  obtain ⟨_, -, h⟩ := Outcome.bind_eq_ok.1 h
  obtain ⟨made, hmade, h⟩ := Outcome.bind_eq_ok.1 h
  obtain ⟨rfl, rfl⟩ := Prod.mk.inj (Except.ok.inj h)
  exact hmade

/-- An error that is not one of the files stems from what is declared. -/
theorem resolve_eq_error_iff {error : BuildError} (hfiles : ¬SourceSet.Failure error) :
    description.resolve tree root schedule toolsVersion platform = .error error ↔
      description.checked toolsVersion platform = .error error := by
  rw [resolve_eq_bind, Outcome.bind_eq_error]
  refine ⟨fun h => h.resolve_right fun hplan => ?_, .inl⟩
  obtain ⟨⟨descriptor, graph⟩, hchecked, herror⟩ := hplan
  exact hfiles (Descriptor.plan_error (graph_of_checked hchecked) herror)

/-- A state other than the general one is settled by what is declared. -/
theorem resolve_failsAs_iff {state : ResolutionState} (hstate : state ≠ .failed) :
    FailsAs (description.resolve tree root schedule toolsVersion platform) state ↔
      FailsAs (description.descriptorFor toolsVersion) state ∨
        ∃ descriptor, description.descriptorFor toolsVersion = .ok descriptor ∧
          (FailsAs (descriptor.checkPlatform platform) state ∨
            descriptor.checkPlatform platform = .ok () ∧ FailsAs descriptor.graph state) := by
  -- The errors of the files all lead to the general state, so none of them is meant here.
  have hchecked : FailsAs (description.resolve tree root schedule toolsVersion platform) state ↔
      FailsAs (description.checked toolsVersion platform) state := by
    refine exists_congr fun error => and_congr_left fun herror => resolve_eq_error_iff ?_
    intro hfiles
    have hmem := (Stage.Fails.files hfiles).ofError_mem
    rw [herror] at hmem
    exact hstate (List.mem_singleton.1 hmem)
  rw [hchecked]
  unfold checked
  rw [FailsAs.bind_iff]
  refine or_congr_right (exists_congr fun descriptor => and_congr_right fun _ => ?_)
  rw [FailsAs.bind_iff]
  have hgraph : FailsAs (descriptor.graph >>= fun graph => pure (descriptor, graph)) state ↔
      FailsAs descriptor.graph state := by
    rw [FailsAs.bind_iff]
    refine ⟨fun h => h.resolve_right fun hpure => ?_, .inl⟩
    obtain ⟨_, -, error, herror, -⟩ := hpure
    cases herror
  refine or_congr_right ⟨fun h => ?_, fun h => ?_⟩
  · obtain ⟨_, hcheck, h⟩ := h
    exact ⟨hcheck, hgraph.1 h⟩
  · exact ⟨(), h.1, hgraph.2 h.2⟩

theorem descriptorFor_failsAs_iff {state : ResolutionState} (hstate : state ≠ .unresolvedReference) :
    FailsAs (description.descriptorFor toolsVersion) state ↔
      FailsAs (description.select toolsVersion) state := by
  unfold descriptorFor
  rw [FailsAs.bind_iff]
  refine ⟨fun h => h.resolve_right fun hlater => ?_, .inl⟩
  obtain ⟨variant, -, h⟩ := hlater
  exact hstate (List.mem_singleton.1 (h.mem_states fun _ => materialize_error))

theorem select_failsAs_iff : FailsAs (description.select toolsVersion) .invalidVariant ↔
    description.variants.entries ≠ [] ∧ description.variants.thresholds.Nodup ∧
      ∀ threshold ∈ description.variants.thresholds, toolsVersion < threshold := by
  rw [← VariantTable.select_eq_invalidVariant_iff]
  constructor
  · intro h
    obtain ⟨error, herror, hstate⟩ := h
    cases VariantTable.select_error herror with
    | sharedThreshold _ _ _ => cases hstate
    | belowAll named => exact ⟨named, herror⟩
  · intro h
    obtain ⟨named, h⟩ := h
    exact ⟨_, h, rfl⟩

/-! ## The states that are settled by the declaration -/

theorem resolve_failsAs_invalidVariant_iff :
    FailsAs (description.resolve tree root schedule toolsVersion platform) .invalidVariant ↔
      description.variants.entries ≠ [] ∧ description.variants.thresholds.Nodup ∧
        ∀ threshold ∈ description.variants.thresholds, toolsVersion < threshold := by
  rw [resolve_failsAs_iff (by decide), descriptorFor_failsAs_iff (by decide), select_failsAs_iff]
  refine ⟨fun h => h.resolve_right fun hlater => ?_, .inl⟩
  obtain ⟨descriptor, -, h | ⟨-, h⟩⟩ := hlater
  · cases List.mem_singleton.1 (h.mem_states fun _ => Descriptor.checkPlatform_error)
  · exact absurd (Descriptor.mem_of_graph_failsAs h) (by decide)

theorem resolve_failsAs_platformUnsupported_iff :
    FailsAs (description.resolve tree root schedule toolsVersion platform) .platformUnsupported ↔
      ∃ descriptor, description.descriptorFor toolsVersion = .ok descriptor ∧
        descriptor.Refuses platform := by
  rw [resolve_failsAs_iff (by decide), descriptorFor_failsAs_iff (by decide)]
  constructor
  · intro h
    rcases h with h | ⟨descriptor, hdescriptor, h | ⟨-, h⟩⟩
    · exact absurd (h.mem_states fun _ => VariantTable.select_error) (by decide)
    · exact ⟨descriptor, hdescriptor, Descriptor.checkPlatform_failsAs_iff.1 h⟩
    · exact absurd (Descriptor.mem_of_graph_failsAs h) (by decide)
  · intro h
    obtain ⟨descriptor, hdescriptor, hrefuses⟩ := h
    exact .inr ⟨descriptor, hdescriptor, .inl (Descriptor.checkPlatform_failsAs_iff.2 hrefuses)⟩

/-- What the check of the graph is about is the same before and after a variant is applied. -/
theorem descriptorFor_graph_failsAs_iff (h : description.descriptorFor toolsVersion = .ok descriptor) :
    FailsAs descriptor.graph .cycleDetected ↔
      (∀ target ∈ description.targets, target.isValid = true) ∧
        (Target.names description.targets).Nodup ∧ Resolved description.targets ∧
          ∃ name, Needs description.targets name name := by
  obtain ⟨variant, -, hmaterialize⟩ := descriptorFor_eq_ok h
  rw [Descriptor.graph_failsAs_iff, materialize_valid hmaterialize, materialize_names hmaterialize,
    materialize_resolved hmaterialize, materialize_needs hmaterialize]

theorem resolve_failsAs_cycleDetected_iff :
    FailsAs (description.resolve tree root schedule toolsVersion platform) .cycleDetected ↔
      (∃ descriptor, description.descriptorFor toolsVersion = .ok descriptor ∧
        ¬descriptor.Refuses platform) ∧
      (∀ target ∈ description.targets, target.isValid = true) ∧
        (Target.names description.targets).Nodup ∧ Resolved description.targets ∧
          ∃ name, Needs description.targets name name := by
  rw [resolve_failsAs_iff (by decide), descriptorFor_failsAs_iff (by decide)]
  constructor
  · intro h
    rcases h with h | ⟨descriptor, hdescriptor, h | ⟨hplatform, h⟩⟩
    · exact absurd (h.mem_states fun _ => VariantTable.select_error) (by decide)
    · cases List.mem_singleton.1 (h.mem_states fun _ => Descriptor.checkPlatform_error)
    · exact ⟨⟨descriptor, hdescriptor, Descriptor.checkPlatform_eq_ok_iff.1 hplatform⟩,
        (descriptorFor_graph_failsAs_iff hdescriptor).1 h⟩
  · intro h
    obtain ⟨⟨descriptor, hdescriptor, hplatform⟩, hcycle⟩ := h
    exact .inr ⟨descriptor, hdescriptor, .inr ⟨Descriptor.checkPlatform_eq_ok_iff.2 hplatform,
      (descriptorFor_graph_failsAs_iff hdescriptor).2 hcycle⟩⟩

end PackageDescription

end PackagePlan
