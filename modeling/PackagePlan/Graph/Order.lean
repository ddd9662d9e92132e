/-
  The build order: a depth-first walk that follows the dependency lists as declared and notes
  each target after everything it depends on. It starts at the targets as declared, so a tie is
  decided by the list in which the walk comes across the two targets first: that of a target that
  depends on them, or the declared targets.
-/
import PackagePlan.Graph.Basic

namespace PackagePlan.Graph

/-- The targets of other names. -/
def without (name : String) (targets : List Target) : List Target :=
  targets.filter (·.name != name)

/-- Taking a target of a name out of a list makes the list shorter. -/
theorem length_without_lt {targets : List Target} {name : String} {target : Target}
    (h : targets.find? (·.name == name) = some target) :
    (without name targets).length < targets.length := by
  have hmem := List.mem_of_find?_eq_some h
  have hname : target.name = name := by simpa using List.find?_some h
  refine Nat.lt_of_le_of_ne (List.length_filter_le ..) fun heq => ?_
  have hall := List.length_filter_eq_length_iff.1 heq target hmem
  simp [hname] at hall

/-- The cycle that closes when `name` is met again on the path that leads to it. -/
def cycleAt (path : List String) (name : String) : List String := path.dropWhile (· != name)

/-- Visit the listed names one after the other and extend the order by what was not yet in it.
`unvisited` holds the targets that are not on the path from a root to here, and `path` the names
that are; `owner` is the target that lists the names. -/
def visit (owner : String) (unvisited : List Target) (path : List String) :
    List String → List String → Except BuildError (List String)
  | [], order => .ok order
  | name :: rest, order =>
    if name ∈ order then visit owner unvisited path rest order
    else if name ∈ path then .error (.cycleDetected (cycleAt path name))
    else match _h : unvisited.find? (·.name == name) with
      | none => .error (.unresolvedReference name (.target owner))
      | some target => do
        let order ← visit name (without name unvisited) (path ++ [name]) target.dependencies order
        visit owner unvisited path rest (order ++ [name])
termination_by names => (unvisited.length, names.length)
decreasing_by
  · exact .right _ (by simp)
  · exact .left _ _ (length_without_lt _h)
  · exact .right _ (by simp)

/-- The declared names, each after all of its dependencies. -/
def buildOrder (graph : Graph) : Except BuildError (List String) :=
  visit "" graph.targets [] graph.names []

/-- Check that every dependency is declared and that no target depends on itself, directly or
through others. -/
def check (graph : Graph) : Except BuildError Unit :=
  match graph.firstUnresolved? graph.targets with
  | some error => .error error
  | none => graph.buildOrder.map fun _ => ()

end PackagePlan.Graph
