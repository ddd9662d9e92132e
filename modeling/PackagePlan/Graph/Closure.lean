/-
  The closure of a target: everything it depends on, directly or through others, in build order.
-/
import PackagePlan.Graph.Order

namespace PackagePlan.Graph

/-- The names reached from those that are pending. `unreached` holds the targets not reached
before, and `start` is the target the search began at. The name pending last is followed first,
so `pending` lists the names in reverse. -/
def reach (start : String) (unreached : List Target) (reached : List String) :
    List String → Except BuildError (List String)
  | [] => .ok reached
  | name :: pending =>
    if name ∈ reached then reach start unreached reached pending
    else match _h : unreached.find? (·.name == name) with
      | none => .error (.unresolvedReference name (.target start))
      | some target =>
        reach start (without name unreached) (name :: reached)
          (target.dependencies.reverse ++ pending)
termination_by pending => (unreached.length, pending.length)
decreasing_by
  · exact .right _ (by simp)
  · exact .left _ _ (length_without_lt _h)

/-- The targets that a target depends on, directly or through others, in build order. -/
def closure (graph : Graph) (name : String) : Except BuildError (List String) :=
  match graph.target? name with
  | none => .error (.targetNotFound name)
  | some target => do
    let reached ← reach name graph.targets [] target.dependencies.reverse
    let order ← graph.buildOrder
    return order.filter fun member => decide (member ∈ reached)

end PackagePlan.Graph
