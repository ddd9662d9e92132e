/-
  The cycles that are reported. The build order, the check, the waves and the closures all stop at
  a cycle that the walk has met, so whichever of them reports one, its names are a real cycle
  (`isCycle_of_reports`). Where every dependency is declared, the check reports a cycle exactly
  when some target needs itself (`reported_cycle_real`).
-/
import PackagePlan.Proofs.Graph.Search

namespace PackagePlan

namespace Target

variable {targets : List Target} {cycle : List String}

theorem IsCycle.ne_nil (h : IsCycle targets cycle) : cycle ≠ [] := by
  obtain ⟨first, hfirst, -⟩ := h.closes
  rintro rfl
  cases hfirst

/-- Every name of a cycle depends on a name, so its target is declared. -/
theorem IsCycle.declared (h : IsCycle targets cycle) {name : String} (hname : name ∈ cycle) :
    name ∈ names targets := by
  obtain ⟨first, -, last, hlast, hclose⟩ := h.closes
  obtain ⟨pre, post, rfl⟩ := List.append_of_mem hname
  cases post with
  | nil =>
    obtain rfl : name = last := by simpa using hlast
    exact hclose.declared
  | cons next rest =>
    have hchain := h.chain.right_of_append
    exact (List.isChain_cons_cons.1 hchain).1.declared

end Target

namespace Graph

open Target (Acyclic DependsOn IsCycle Needs Resolved)

variable {graph : Graph} {error : BuildError} {cycle : List String}

/-- An operation on the graph stops with the error. -/
inductive Reports (graph : Graph) (error : BuildError) : Prop where
  | order (h : graph.buildOrder = .error error)
  | check (h : graph.check = .error error)
  | waves (h : graph.waves = .error error)
  | closure (name : String) (h : graph.closure name = .error error)

/-! ## Cycles -/

theorem isCycle_of_buildOrder (h : graph.buildOrder = .error (.cycleDetected cycle)) :
    IsCycle graph.targets cycle := by
  cases buildOrder_error h with
  | cycle real => exact real

/-- Whichever operation reports a cycle, it is a real one. -/
theorem isCycle_of_reports (h : graph.Reports (.cycleDetected cycle)) :
    IsCycle graph.targets cycle := by
  cases h with
  | order h => exact isCycle_of_buildOrder h
  | check h =>
    cases blamed_of_check h with
    | cycle real => exact real
  | waves h => exact isCycle_of_buildOrder (waves_eq_error.1 h)
  | closure name h =>
    have hanswer := answer_closure graph name
    rw [h] at hanswer
    cases hanswer with
    | unordered _ _ horder => exact isCycle_of_buildOrder horder

/-- Where every dependency is declared, a check that fails has met a cycle. -/
theorem exists_cycle_of_check (hresolved : Resolved graph.targets)
    (h : graph.check = .error error) : ∃ cycle, error = .cycleDetected cycle := by
  cases blamed_of_check h with
  | cycle real => exact ⟨_, rfl⟩
  | unknown undeclared lists =>
    exact absurd (Target.resolved_iff.1 hresolved _ _ lists) undeclared

/-- Where every dependency is declared, the check reports a cycle exactly when there is one. -/
theorem exists_check_eq_cycle_iff (hresolved : Resolved graph.targets) :
    (∃ cycle, graph.check = .error (.cycleDetected cycle)) ↔ ¬Acyclic graph.targets := by
  constructor
  · rintro ⟨cycle, h⟩ hacyclic
    rw [check_eq_ok_iff.2 ⟨hresolved, hacyclic⟩] at h
    cases h
  · intro hcyclic
    cases hcheck : graph.check with
    | ok _ => exact absurd (check_eq_ok_iff.1 hcheck).2 hcyclic
    | error error =>
      obtain ⟨cycle, rfl⟩ := exists_cycle_of_check hresolved hcheck
      exact ⟨cycle, rfl⟩

/-! ## The main statement -/

/-- A cycle that an operation on an accepted list of targets reports is not empty, and its names
    are distinct declared targets, each of which depends on the next and the last on the first.
    Where every dependency is declared, the check reports one exactly when some target reaches
    itself. -/
theorem reported_cycle_real {targets : List Target} (h : ofTargets targets = .ok graph) :
    (∀ cycle, graph.Reports (.cycleDetected cycle) →
      cycle ≠ [] ∧ (∀ name ∈ cycle, name ∈ Target.names targets) ∧ IsCycle targets cycle) ∧
    (Resolved targets →
      ((∃ cycle, graph.check = .error (.cycleDetected cycle)) ↔
        ∃ name ∈ Target.names targets, Needs targets name name)) := by
  obtain rfl := targets_of_ofTargets h
  refine ⟨fun cycle hreports => ?_, fun hresolved => ?_⟩
  · have hcycle := isCycle_of_reports hreports
    exact ⟨hcycle.ne_nil, fun name hname => hcycle.declared hname, hcycle⟩
  · rw [exists_check_eq_cycle_iff hresolved]
    unfold Acyclic
    push Not
    rfl

/-- Three targets that need each other in a ring, and one that depends on the ring and itself. -/
def ring : Graph where
  targets := [
    { name := "A", dependencies := ["C"], path := ⟨"A"⟩ },
    { name := "B", dependencies := ["A"], path := ⟨"B"⟩ },
    { name := "C", dependencies := ["B"], path := ⟨"C"⟩ },
    { name := "D", dependencies := ["C", "D"], path := ⟨"D"⟩ }]
  valid := by decide +kernel
  distinct := by decide

/-- The ring is reported in the order in which it was walked, also where the closure of the target
    outside of it is asked for. -/
theorem reported_cycle_ring :
    ring.closure "D" = .error (.cycleDetected ["A", "C", "B"]) ∧
      IsCycle ring.targets ["A", "C", "B"] ∧
      ∃ cycle, ring.check = .error (.cycleDetected cycle) := by
  have haccepted : ofTargets ring.targets = .ok ring := ofTargets_eq_ok_iff.2 rfl
  obtain ⟨hreal, hexact⟩ := reported_cycle_real haccepted
  have hclosure : ring.closure "D" = .error (.cycleDetected ["A", "C", "B"]) := by cbv
  have hresolved : Resolved ring.targets := by
    unfold Resolved
    decide
  have hself : Needs ring.targets "D" "D" := .single ⟨ring.targets[3], by decide, rfl, by decide⟩
  exact ⟨hclosure, (hreal _ (.closure "D" hclosure)).2.2,
    (hexact hresolved).2 ⟨"D", by decide, hself⟩⟩

end Graph

end PackagePlan
