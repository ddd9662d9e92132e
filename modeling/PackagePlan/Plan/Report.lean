/-
  What a resolution reports on its way: the chosen variant, the build order, each source set with
  the exclusions that cover nothing, and the finished plan. A stage that fails ends the report.
-/
import PackagePlan.Log
import PackagePlan.Plan.Resolution

namespace PackagePlan

namespace SourceSet

/-- The warning about an exclusion that covers nothing. -/
def staleEvent (set : SourceSet) (pattern : String) : LogEvent :=
  ⟨.warn, "exclusion pattern matched no files; descriptor may be stale",
    [("target", set.target), ("pattern", pattern)]⟩

/-- What is reported of a source set. -/
def report (set : SourceSet) : List LogEvent :=
  set.unusedExclusions.map set.staleEvent ++ [⟨.debug, "resolved source set",
    [("target", set.target), ("files", toString set.size),
      ("public_headers", toString set.publicHeaders.length)]⟩]

end SourceSet

namespace Graph

/-- The source sets of the names up to the first that cannot be resolved. -/
def sourcesUpTo (graph : Graph) (tree : Tree) (root : Path) : List String → List SourceSet
  | [] => []
  | name :: rest =>
    match graph.sourcesOf tree root name with
    | .ok (_, set) => set :: graph.sourcesUpTo tree root rest
    | .error _ => []

end Graph

namespace Descriptor

/-- What is reported of the platform. -/
def platformReport (descriptor : Descriptor) : Option Platform → List LogEvent
  | some _ => []
  | none =>
    if descriptor.platforms.isEmpty then
      [⟨.debug, "variant has no platform constraints", [("variant", descriptor.variant.name)]⟩]
    else []

/-- What is reported once the graph has been checked. -/
def planReport (descriptor : Descriptor) (graph : Graph) (tree : Tree) (root : Path)
    (schedule : Schedule) (toolsVersion : Version) (platform : Option Platform) :
    List LogEvent :=
  match graph.buildOrder, graph.waves with
  | .ok order, .ok waves =>
    let sets := graph.sourcesUpTo tree root (waves.map schedule.arrange).flatten
    let ready :=
      match descriptor.plan graph tree root schedule toolsVersion platform with
      | .error _ => []
      | .ok plan => [⟨.info, "build plan ready",
          [("targets", toString plan.stats.totalTargets),
            ("files", toString plan.stats.totalFiles)]⟩]
    ⟨.debug, "computed build order",
        [("order", Text.quotedList order), ("groups", toString waves.length)]⟩
      :: sets.flatMap SourceSet.report ++ ready
  | _, _ => []

end Descriptor

/-- What the resolution of a description reports. -/
def PackageDescription.report (description : PackageDescription) (tree : Tree) (root : Path)
    (schedule : Schedule) (toolsVersion : Version) (platform : Option Platform) :
    List LogEvent :=
  match description.select toolsVersion with
  | .error _ => []
  | .ok variant =>
    let chosen : LogEvent := ⟨.info, "selected descriptor variant",
      [("variant", variant.name), ("tools_version", toolsVersion.render)]⟩
    match description.materialize variant with
    | .error _ => [chosen]
    | .ok descriptor =>
      match descriptor.checkPlatform platform with
      | .error _ => [chosen]
      | .ok () =>
        chosen :: descriptor.platformReport platform ++
          match descriptor.graph with
          | .error _ => []
          | .ok graph => descriptor.planReport graph tree root schedule toolsVersion platform

end PackagePlan
