/-
  Waves: groups of targets that can compile side by side. Every target stands in the first wave
  in which all of its dependencies have been built.
-/
import PackagePlan.Graph.Order

namespace PackagePlan.Graph

/-- Whether everything a target depends on has been built. -/
def isReady (built : List String) (target : Target) : Bool :=
  target.dependencies.all fun name => decide (name ∈ built)

/-- The targets that still miss something they depend on. -/
def blocked (built : List String) (targets : List Target) : List Target :=
  targets.filter fun target => !isReady built target

/-- The targets that miss nothing they depend on. -/
def ready (built : List String) (targets : List Target) : List Target :=
  targets.filter (isReady built)

theorem length_blocked_lt {built : List String} {targets : List Target}
    (h : ready built targets ≠ []) : (blocked built targets).length < targets.length := by
  refine Nat.lt_of_le_of_ne (List.length_filter_le ..) fun heq => h ?_
  refine List.filter_eq_nil_iff.2 fun target htarget hready => ?_
  have := List.length_filter_eq_length_iff.1 heq target htarget
  simp [hready] at this

/-- The waves of the targets that still wait, as far as some of them are ready. -/
def wavesFrom (built : List String) (waiting : List Target) : List (List String) :=
  let wave := Target.names (ready built waiting)
  if _h : ready built waiting = [] then []
  else wave :: wavesFrom (built ++ wave) (blocked built waiting)
termination_by waiting.length
decreasing_by exact length_blocked_lt _h

/-- The waves in which the targets can be built, each in declaration order. -/
def waves (graph : Graph) : Except BuildError (List (List String)) := do
  let _ ← graph.buildOrder
  return wavesFrom [] graph.targets

end PackagePlan.Graph
