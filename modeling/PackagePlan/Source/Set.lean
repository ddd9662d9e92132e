/-
  The source set of a target: the files under its source roots that no exclusion pattern of its
  own covers, and the headers under its public headers directory that none covers. Files are
  named relative to the target directory and public headers relative to theirs.
-/
import PackagePlan.Exclusion
import PackagePlan.Source.Kind
import PackagePlan.Target
import PackagePlan.Tree.Walk

namespace PackagePlan

/-- The files of a target. -/
structure SourceSet where
  target : String
  /-- The target directory, seen from where the package root is seen. -/
  root : Path
  /-- The files, relative to the target directory, in ascending order. -/
  files : List Path
  publicDir : Option Path
  /-- The public headers, relative to their directory, in ascending order. -/
  publicHeaders : List Path
  /-- The patterns that cover nothing. -/
  unusedExclusions : List String
  deriving DecidableEq, Inhabited, Repr

namespace SourceSet

/-- The number of files. -/
def size (set : SourceSet) : Nat := set.files.length

/-- Whether there are no files. -/
def isEmpty (set : SourceSet) : Bool := set.files.isEmpty

/-- Whether a path, relative to the target directory, is one of the files. -/
def contains (set : SourceSet) (path : Path) : Bool := path.foundIn set.files

/-- The files of a kind. -/
def ofKind (set : SourceSet) (kind : FileKind) : List Path :=
  set.files.filter fun file => FileKind.of file == kind

/-- The files the compiler is run on. -/
def units (set : SourceSet) : List Path := set.ofKind .unit

/-- The headers among the files. -/
def headers (set : SourceSet) : List Path := set.ofKind .header

/-- A path as seen from a directory it should lie in. -/
def seenFrom (root file : Path) : Except BuildError Path :=
  match file.relativeTo? root with
  | some path => .ok path
  | none => .error (.invalidTarget (.strayFile file root))

/-- What a walk reports, as seen from the target directory. -/
def seen (root : Path) : Except WalkFault Path → Except BuildError Path
  | .ok file => seenFrom root file
  | .error unread => .error (.unreadable unread.path unread.fault)

/-- The files under a path, as seen from the target directory. The first thing that is amiss ends
the walk. -/
def listing (tree : Tree) (root start : Path) : Except BuildError (List Path) :=
  (tree.filesUnder start).mapM (seen root)

/-- The files under one source root. -/
def filesIn (tree : Tree) (packageRoot root : Path) (target : Target) (sourceRoot : Path) :
    Except BuildError (List Path) :=
  let start := packageRoot.join sourceRoot
  if tree.exists? start then listing tree root start
  else .error (.missingSourceRoot target.name start)

/-- The files under all source roots, excluded or not. -/
def candidates (tree : Tree) (packageRoot root : Path) (target : Target) :
    Except BuildError (List Path) :=
  (target.sourceRoots.mapM (filesIn tree packageRoot root target)).map List.flatten

/-- The headers under the public headers directory, excluded or not. -/
def headerCandidates (tree : Tree) (root : Path) (target : Target) :
    Option Path → Except BuildError (List Path)
  | none => .ok []
  | some dir =>
    if tree.isDirectory dir then
      (listing tree root dir).map fun paths =>
        paths.filter fun path => FileKind.of path == .header
    else .error (.missingSourceRoot target.name dir)

/-- The paths that no pattern covers. -/
def kept (exclusions : List Exclusion) (paths : List Path) : List Path :=
  paths.filter fun path => !exclusions.any (·.covers path)

/-- The patterns that cover none of the paths. -/
def unused (exclusions : List Exclusion) (paths : List Path) : List String :=
  (exclusions.filter fun exclusion => !paths.any exclusion.covers).map (·.text)

/-- Headers relative to the public headers directory. -/
def publicNames (root : Path) (dir : Option Path) (headers : List Path) : List Path :=
  match dir with
  | none => []
  | some dir => headers.filterMap fun header => (root.join header).relativeTo? dir

/-- The source set of a target in a tree. -/
def resolve (tree : Tree) (packageRoot : Path) (target : Target) :
    Except BuildError SourceSet := do
  let root := packageRoot.join target.path
  if !tree.isDirectory root then
    throw (.missingSourceRoot target.name root)
  let exclusions ← target.exclude.mapM (Exclusion.parse target.name)
  let files ← candidates tree packageRoot root target
  let publicDir := target.publicHeadersDir?.map packageRoot.join
  let headers ← headerCandidates tree root target publicDir
  return {
    target := target.name
    root
    files := Path.sorted (kept exclusions files)
    publicDir
    publicHeaders := Path.sorted (publicNames root publicDir (kept exclusions headers))
    unusedExclusions := unused exclusions (files ++ headers) }

/-- A list of paths as a record. -/
def pathsJson (paths : List Path) : Json := .strings (paths.map Path.text)

/-- The source set as a record. -/
def toJson (set : SourceSet) : Json :=
  .object [
    ("target", .string set.target),
    ("root", .string set.root.text),
    ("files", pathsJson set.files),
    ("public_dir", .ofOption (set.publicDir.map Path.text)),
    ("public_headers", pathsJson set.publicHeaders),
    ("unused_exclusions", .strings set.unusedExclusions)]

end SourceSet

end PackagePlan
