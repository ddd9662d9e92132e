/-
  The waves reach every target. As long as something waits, the first waiting target of any order
  that settles all targets has everything it depends on built, so the next wave is not empty and
  the rounds only end when nothing waits (`Waiting.flatten_perm`). A wave keeps the order of
  declaration (`exists_filter_of_mem_wavesFrom`).
-/
import Mathlib.Data.List.Perm.Basic
import PackagePlan.Proofs.Graph.Walk

namespace PackagePlan.Graph

open Target (Settled)

variable {graph : Graph} {built : List String} {waiting : List Target}

theorem isReady_iff {target : Target} :
    isReady built target = true ↔ ∀ name ∈ target.dependencies, name ∈ built := by
  unfold isReady
  simp only [List.all_eq_true, decide_eq_true_eq]

theorem mem_ready {target : Target} :
    target ∈ ready built waiting ↔ target ∈ waiting ∧ ∀ name ∈ target.dependencies, name ∈ built := by
  unfold ready
  rw [List.mem_filter, isReady_iff]

theorem mem_blocked {target : Target} :
    target ∈ blocked built waiting ↔
      target ∈ waiting ∧ ¬ ∀ name ∈ target.dependencies, name ∈ built := by
  unfold blocked
  rw [List.mem_filter, Bool.not_eq_true', ← Bool.not_eq_true, isReady_iff]

theorem wavesFrom_nil (h : ready built waiting = []) : wavesFrom built waiting = [] := by
  rw [wavesFrom, dif_pos h]

theorem wavesFrom_cons (h : ready built waiting ≠ []) :
    wavesFrom built waiting =
      Target.names (ready built waiting) ::
        wavesFrom (built ++ Target.names (ready built waiting)) (blocked built waiting) := by
  rw [wavesFrom, dif_neg h]

/-- A wave lists the names of some of the targets that waited, in their order. -/
theorem exists_filter_of_mem_wavesFrom {wave : List String} (h : wave ∈ wavesFrom built waiting) :
    ∃ p : Target → Bool, wave = Target.names (waiting.filter p) := by
  induction built, waiting using wavesFrom.induct with
  | case1 built waiting hready =>
    rw [wavesFrom_nil hready] at h
    cases h
  | case2 built waiting _ hready ih =>
    rw [wavesFrom_cons hready] at h
    rcases List.mem_cons.1 h with rfl | h
    · exact ⟨isReady built, rfl⟩
    · obtain ⟨p, rfl⟩ := ih h
      unfold blocked
      rw [List.filter_filter]
      exact ⟨_, rfl⟩

/-- A round of waves: every target has been built or still waits. -/
structure Waiting (graph : Graph) (built : List String) (waiting : List Target) : Prop where
  known : ∀ target ∈ waiting, target ∈ graph.targets
  covered : ∀ target ∈ graph.targets, target.name ∈ built ∨ target ∈ waiting

namespace Waiting

theorem start (graph : Graph) : Waiting graph [] graph.targets where
  known _ h := h
  covered _ h := .inr h

/-- The next round: what was ready is built. -/
theorem next (h : Waiting graph built waiting) :
    Waiting graph (built ++ Target.names (ready built waiting)) (blocked built waiting) where
  known target htarget := h.known target (mem_blocked.1 htarget).1
  covered target htarget := by
    rcases h.covered target htarget with hbuilt | hwaits
    · exact .inl (List.mem_append_left _ hbuilt)
    · by_cases hready : ∀ name ∈ target.dependencies, name ∈ built
      · exact .inl (List.mem_append_right _
          (Target.mem_names.2 ⟨target, mem_ready.2 ⟨hwaits, hready⟩, rfl⟩))
      · exact .inr (mem_blocked.2 ⟨hwaits, hready⟩)

/-- If a target of a settled order waits, then some waiting target is ready. -/
theorem exists_ready (h : Waiting graph built waiting) {order : List String}
    (horder : Settled graph.targets order) :
    (∃ target ∈ waiting, target.name ∈ order) → ∃ target, target ∈ ready built waiting := by
  induction horder with
  | nil => rintro ⟨_, _, hname⟩; cases hname
  | @snoc order target _ declared _ met ih =>
    rintro ⟨other, hother, hname⟩
    by_cases hbefore : ∃ target ∈ waiting, target.name ∈ order
    · exact ih hbefore
    · -- nothing in front of it waits, so all it depends on has been built
      rcases List.mem_append.1 hname with hname | hname
      · exact absurd ⟨other, hother, hname⟩ hbefore
      · obtain rfl := Target.eq_of_name_eq graph.distinct (h.known other hother) declared
          (List.mem_singleton.1 hname)
        refine ⟨other, mem_ready.2 ⟨hother, fun name hdep => ?_⟩⟩
        obtain ⟨dependency, hmem, rfl⟩ := Target.mem_names.1 (‹Settled _ _›.declared name (met name hdep))
        rcases h.covered dependency hmem with hbuilt | hwaits
        · exact hbuilt
        · exact absurd ⟨dependency, hwaits, met _ hdep⟩ hbefore

/-- The waves of the targets that wait hold each of them once. -/
theorem flatten_perm (h : Waiting graph built waiting) {order : List String}
    (horder : Settled graph.targets order) (hall : ∀ name ∈ graph.names, name ∈ order) :
    (wavesFrom built waiting).flatten.Perm (Target.names waiting) := by
  induction built, waiting using wavesFrom.induct with
  | case1 built waiting hready =>
    rw [wavesFrom_nil hready]
    cases waiting with
    | nil => exact List.Perm.nil
    | cons first rest =>
      have hname : first.name ∈ order :=
        hall _ (Target.mem_names.2 ⟨first, h.known first (List.mem_cons_self ..), rfl⟩)
      obtain ⟨target, htarget⟩ := h.exists_ready horder ⟨first, List.mem_cons_self .., hname⟩
      rw [hready] at htarget
      cases htarget
  | case2 built waiting wave hready ih =>
    rw [wavesFrom_cons hready, List.flatten_cons]
    refine ((ih h.next).append_left _).trans ?_
    unfold Target.names
    rw [← List.map_append]
    exact (List.filter_append_perm (isReady built) waiting).map _

end Waiting

end PackagePlan.Graph
