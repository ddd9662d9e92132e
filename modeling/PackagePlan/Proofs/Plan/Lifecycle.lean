/-
  The life of a resolver. A call starts afresh, so after any history of calls the state is that of
  the last call alone (`state_after_concat`), and what a state or an error of the declaration says
  holds whatever the files were at that call. Main statement: `resolve_lifecycle`.
-/
import PackagePlan.Proofs.Plan.States

namespace PackagePlan

open ResolutionState (ofOutcome)
open Target (Needs Resolved)

/-- The errors that tell of what is declared, of the tools version or of the platform. -/
def BuildError.isDeclared : BuildError → Bool
  | .invalidVariant .. | .platformUnsupported .. | .platformUnspecified ..
  | .duplicateTarget .. | .unresolvedReference .. | .cycleDetected ..
  | .invalidDescriptor .. | .overlappingSourceRoots .. => true
  | _ => false

theorem BuildError.not_failure {error : BuildError} (h : error.isDeclared = true) :
    ¬SourceSet.Failure error := by
  intro hfailure
  cases hfailure <;> cases h

/-! ## One call after the other -/

namespace Resolver

/-- One call of a resolver, with the files as they are at that time. -/
structure Call where
  tree : Tree
  toolsVersion : Version
  platform : Option Platform

/-- What a call returns, and the resolver behind it. -/
def call (resolver : Resolver) (call : Call) : Except BuildError Plan × Resolver :=
  resolver.resolve call.tree call.toolsVersion call.platform

/-- The resolver after calls one after the other. -/
def after (resolver : Resolver) (calls : List Call) : Resolver :=
  calls.foldl (fun resolver call => (resolver.call call).2) resolver

variable {resolver : Resolver}

theorem after_concat (calls : List Call) (last : Call) :
    resolver.after (calls ++ [last]) = ((resolver.after calls).call last).2 := by
  unfold after
  rw [List.foldl_append, List.foldl_cons, List.foldl_nil]

/-- A call changes nothing but the state. -/
theorem exists_after_eq (calls : List Call) :
    ∃ state, resolver.after calls = { resolver with state } := by
  -- From the end of the history: the last call keeps all but the state of what came before it.
  induction calls using List.reverseRecOn with
  | nil => exact ⟨resolver.state, rfl⟩
  | append_singleton calls last ih =>
    obtain ⟨state, hstate⟩ := ih
    rw [after_concat, hstate]
    exact ⟨_, rfl⟩

/-- What a call returns does not depend on the calls before it. -/
theorem answer_after (calls : List Call) (last : Call) :
    ((resolver.after calls).call last).1 = (resolver.call last).1 := by
  obtain ⟨state, hstate⟩ := exists_after_eq calls
  rw [hstate]
  rfl

/-- The state is that of the last call. -/
theorem state_after_concat (calls : List Call) (last : Call) :
    (resolver.after (calls ++ [last])).state = ofOutcome (resolver.call last).1 := by
  rw [after_concat, ← answer_after calls]
  rfl

/-- What a resolver owes to its callers after a history of calls and one more. -/
structure Lifecycle (resolver : Resolver) (calls : List Call) (last : Call) : Prop where
  /-- The state is ready when the last call returned a plan. -/
  ready_iff : (resolver.after (calls ++ [last])).state = .ready ↔
    ∃ plan, ((resolver.after calls).call last).1 = .ok plan
  /-- The state is one of failure when the last call returned an error. -/
  failure_iff : (resolver.after (calls ++ [last])).state.isFailure = true ↔
    ∃ error, ((resolver.after calls).call last).1 = .error error
  /-- After any other history, from any other state, the call returns the same and leaves the same
      state. -/
  last_only : ∀ state earlier,
    ((({ resolver with state } : Resolver).after earlier).call last).1 =
        ((resolver.after calls).call last).1 ∧
      (({ resolver with state } : Resolver).after (earlier ++ [last])).state =
        (resolver.after (calls ++ [last])).state
  /-- No variant applies: there are some, no two share a threshold, and all thresholds are above
      the tools version. -/
  invalidVariant_iff : (resolver.after (calls ++ [last])).state = .invalidVariant ↔
    resolver.description.variants.entries ≠ [] ∧
      resolver.description.variants.thresholds.Nodup ∧
        ∀ threshold ∈ resolver.description.variants.thresholds, last.toolsVersion < threshold
  /-- A variant was chosen and applied, and it does not allow the platform. -/
  platformUnsupported_iff : (resolver.after (calls ++ [last])).state = .platformUnsupported ↔
    ∃ descriptor, resolver.description.descriptorFor last.toolsVersion = .ok descriptor ∧
      descriptor.Refuses last.platform
  /-- A variant was chosen and applied and allows the platform, the targets are valid and have
      names of their own, every dependency is declared, and some target needs itself. -/
  cycleDetected_iff : (resolver.after (calls ++ [last])).state = .cycleDetected ↔
    (∃ descriptor, resolver.description.descriptorFor last.toolsVersion = .ok descriptor ∧
      ¬descriptor.Refuses last.platform) ∧
    (∀ target ∈ resolver.description.targets, target.isValid = true) ∧
      (Target.names resolver.description.targets).Nodup ∧
      Resolved resolver.description.targets ∧
      ∃ name, Needs resolver.description.targets name name
  /-- An error that tells of no file is the same whatever the files are. -/
  same_error : ∀ error, ((resolver.after calls).call last).1 = .error error →
    error.isDeclared = true → ∀ tree,
      ((resolver.after calls).call { last with tree }).1 = .error error

/-- After any history of calls the state tells of the last call alone, and the states for a
    variant, a platform and a cycle mean what they say, whatever the files are. -/
theorem resolve_lifecycle (resolver : Resolver) (calls : List Call) (last : Call) :
    resolver.Lifecycle calls last where
  ready_iff := by
    rw [state_after_concat, answer_after]
    exact ResolutionState.ofOutcome_eq_ready_iff
  failure_iff := by
    rw [state_after_concat, answer_after]
    exact ResolutionState.isFailure_ofOutcome_iff
  last_only state earlier := by
    rw [state_after_concat, state_after_concat, answer_after, answer_after]
    exact ⟨rfl, rfl⟩
  invalidVariant_iff := by
    rw [state_after_concat, ResolutionState.ofOutcome_eq_iff rfl]
    exact PackageDescription.resolve_failsAs_invalidVariant_iff
  platformUnsupported_iff := by
    rw [state_after_concat, ResolutionState.ofOutcome_eq_iff rfl]
    exact PackageDescription.resolve_failsAs_platformUnsupported_iff
  cycleDetected_iff := by
    rw [state_after_concat, ResolutionState.ofOutcome_eq_iff rfl]
    exact PackageDescription.resolve_failsAs_cycleDetected_iff
  same_error error herror hdeclared tree := by
    rw [answer_after] at herror ⊢
    have hfiles := BuildError.not_failure hdeclared
    exact (PackageDescription.resolve_eq_error_iff hfiles).2
      ((PackageDescription.resolve_eq_error_iff hfiles).1 herror)

/-- A call with a tools version below the only threshold, after one that reached it. -/
example :
    (({ description := {
          name := "late"
          variants := .ofList [("new", { minToolsVersion := ⟨6, 0, 0⟩ })] } } : Resolver).after
      [⟨{}, ⟨6, 0, 0⟩, none⟩, ⟨{}, ⟨5, 9, 0⟩, none⟩]).state = .invalidVariant := by
  decide +kernel

end Resolver

end PackagePlan
