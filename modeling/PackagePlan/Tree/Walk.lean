/-
  The walk below a path: the files under it, in the order of their names. Each directory is read
  under the path by which the walk has come to it, so where that path has grown too long the walk
  can go no further.
-/
import PackagePlan.Tree.Lookup

namespace PackagePlan

/-- A directory that a walk could not read. -/
structure WalkFault where
  path : Path
  fault : FileFault
  deriving DecidableEq, Inhabited, Repr

namespace Tree

mutual

/-- What a walk reports of an entry that it comes to under a path. A file is reported, and so is a
symbolic link to one; other links are passed over, whatever they lead to. -/
def reports (tree : Tree) (path : Path) : Entry → List (Except WalkFault Path)
  | .file _ => [.ok path]
  | .link _ => if tree.isFile path then [.ok path] else []
  | .directory members =>
    match tree.find path with
    | .ok _ => reportsOfAll tree path members
    | .error fault => [.error ⟨path, fault⟩]

/-- What a walk reports of the entries of the directory at a path. -/
def reportsOfAll (tree : Tree) (path : Path) : Members → List (Except WalkFault Path)
  | [] => []
  | (name, entry) :: rest =>
    reports tree (path.join ⟨name⟩) entry ++ reportsOfAll tree path rest

end

/-- What a walk finds under a path. A path to a file is that file; the path itself may lead through
symbolic links. -/
def filesUnder (tree : Tree) (start : Path) : List (Except WalkFault Path) :=
  match tree.find start with
  | .error _ => []
  | .ok (.directory members) => tree.reportsOfAll start members
  | .ok _ => [.ok start]

end Tree

end PackagePlan
