/-
  Source roots of different targets must not lie in one another, so that no file belongs to two
  targets.
-/
import PackagePlan.Graph.Basic

namespace PackagePlan.Graph

/-- The lower of two roots, if one lies in the other. -/
def sharedRoot? (a b : Path) : Option Path :=
  if a.startsWith b then some a else if b.startsWith a then some b else none

/-- The first pair of roots of two targets that lie in one another. -/
def overlap? (first second : Target) : Option BuildError :=
  (first.sourceRoots.findSome? fun a => second.sourceRoots.findSome? (sharedRoot? a)).map
    (.overlappingSourceRoots first.name second.name)

/-- The first overlap between a target and one declared after it. -/
def firstOverlap? : List Target → Option BuildError
  | [] => none
  | target :: rest =>
    match rest.findSome? (overlap? target) with
    | some error => some error
    | none => firstOverlap? rest

/-- Check that no source root of a target lies in a source root of another. -/
def checkRoots (graph : Graph) : Except BuildError Unit :=
  match firstOverlap? graph.targets with
  | some error => .error error
  | none => .ok ()

end PackagePlan.Graph
