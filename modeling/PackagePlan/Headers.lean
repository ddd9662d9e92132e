/-
  Which headers a target may include. Each target offers its public headers to the targets that
  depend on it and keeps the rest to itself, under the names its own compilation knows them by.
-/
import PackagePlan.Source.Set

namespace PackagePlan

/-- The headers of one target and where its compilation looks for headers. -/
structure HeaderSurface where
  /-- The names under which dependents include headers. -/
  offered : List Path
  /-- The names that only the target itself may include. -/
  internal : List Path
  /-- The target's own search directories. -/
  searchDirs : List Path
  publicDir : Option Path
  /-- Everything the target depends on, in build order. -/
  closure : List String
  deriving DecidableEq, Inhabited, Repr

namespace HeaderSurface

/-- Whether dependents may include a name. -/
def offers (surface : HeaderSurface) (header : Path) : Bool := header.memOf surface.offered

/-- Whether the target itself may include a name. -/
def knows (surface : HeaderSurface) (header : Path) : Bool :=
  header.memOf surface.offered || header.memOf surface.internal

/-- The file of a public header, relative to the target directory. -/
def fileOf (sources : SourceSet) (header : Path) : Path :=
  match sources.publicDir with
  | none => header
  | some dir => ((dir.join header).relativeTo? sources.root).getD header

/-- The names by which the target's own compilation knows one of its headers: the file itself,
unless it is public, and what is left of it below each search path. -/
def internalNames (publicFiles searchPaths : List Path) (header : Path) : List Path :=
  (if header.memOf publicFiles then [] else [header])
    ++ searchPaths.filterMap header.relativeTo?

/-- The headers of a target with these sources. Of two spellings of one public header the later
one is kept. -/
def of (target : Target) (sources : SourceSet) (closure : List String) : HeaderSurface :=
  let publicFiles := sources.publicHeaders.map (fileOf sources)
  let searchPaths := target.privateSearchPaths
  { offered := Path.sorted sources.publicHeaders.reverse
    internal := Path.sorted (sources.headers.flatMap (internalNames publicFiles searchPaths))
    searchDirs := searchPaths.map fun path => (sources.root.join path).normalize
    publicDir := sources.publicDir
    closure }

end HeaderSurface

/-- Where an included header belongs. -/
inductive Inclusion where
  /-- To the including target itself. -/
  | own
  /-- To the public headers of a target it depends on. -/
  | offeredBy (owner : String)
  deriving DecidableEq, Inhabited, Repr

/-- The headers of several targets. -/
structure HeaderIndex where
  /-- The targets in the order in which they were first registered. -/
  names : List String := []
  /-- What each target was last registered with. -/
  surfaces : Catalog String HeaderSurface := ∅
  deriving Inhabited

namespace HeaderIndex

/-- The headers of a target. -/
def surface? (index : HeaderIndex) (name : String) : Option HeaderSurface :=
  index.surfaces.get? name

/-- Whether a target is registered. -/
def isRegistered (index : HeaderIndex) (name : String) : Bool := (index.surface? name).isSome

/-- Register a target with its sources and everything it depends on. A target that is registered
again keeps its place and gets a new record. -/
def register (index : HeaderIndex) (target : Target) (sources : SourceSet)
    (closure : List String) : HeaderIndex :=
  { names :=
      if index.isRegistered target.name then index.names else index.names ++ [target.name]
    surfaces := index.surfaces.insert target.name (.of target sources closure) }

/-- The public headers of a target. -/
def offeredBy? (index : HeaderIndex) (name : String) : Option (List Path) :=
  (index.surface? name).map (·.offered)

/-- The first of several targets that offers a header. -/
def firstOffering? (index : HeaderIndex) (header : Path) (names : List String) : Option String :=
  names.find? fun name => (index.surface? name).any (·.offers header)

/-- The first of several targets that knows a header, public or not. -/
def firstKnowing? (index : HeaderIndex) (header : Path) (names : List String) : Option String :=
  names.find? fun name => (index.surface? name).any (·.knows header)

/-- Where a header that a target includes belongs: to the target itself, or to the first target
of its closure that offers it. A header that only other targets know, or nobody, is refused. -/
def resolve (index : HeaderIndex) (target : String) (written : Path) :
    Except BuildError Inclusion :=
  let header := written.normalize
  match index.surface? target with
  | none => .error (.targetNotFound target)
  | some own =>
    if own.knows header then .ok .own
    else match index.firstOffering? header own.closure with
      | some owner => .ok (.offeredBy owner)
      | none =>
        match index.firstKnowing? header (own.closure ++ index.names.filter (· != target)) with
        | some owner => .error (.invisibleHeader target header owner)
        | none => .error (.headerNotFound target header)

/-- Paths without those that repeat an earlier one. -/
def distinct (paths : List Path) : List Path :=
  paths.foldl (fun done path => if path.memOf done then done else done ++ [path]) []

/-- Where the compilation of a target looks for headers: its own search directories, its public
headers directory, and the public headers directories of its closure in build order. -/
def includeDirs (index : HeaderIndex) (target : String) : Except BuildError (List Path) :=
  match index.surface? target with
  | none => .error (.targetNotFound target)
  | some own =>
    .ok (distinct (own.searchDirs ++ own.publicDir.toList
      ++ own.closure.filterMap fun name => (index.surface? name).bind (·.publicDir)))

end HeaderIndex

end PackagePlan
