/-
  Changing a file tree: making directories, writing files, placing links, deleting.
-/
import PackagePlan.Tree.Lookup

namespace PackagePlan.Tree

/-- The tree with other members in the directory at the end of a trail, still in good order. -/
def alter (tree : Tree) (trail : Trail) (change : Members → Members)
    (hchange : ∀ members, Entry.areSound members = true → Entry.areSound (change members) = true) :
    Tree :=
  { tree with
    root := tree.root.alter change trail.place
    sound := Entry.isSound_alter hchange trail.place tree.sound }

/-- Put an entry under a name of a directory, over what stands there. -/
def put (tree : Tree) (trail : Trail) (name : String) (entry : Entry)
    (hname : isFileName name = true) (hentry : entry.isSound = true) : Tree :=
  tree.alter trail (Catalog.place name entry) fun _ hmembers =>
    Entry.areSound_place hmembers hname hentry

/-- The trail to the directory that holds the last name of a path, and that name. The name is
absent when the path ends in a step that is not a name. -/
def holder (tree : Tree) (path : Path) : Except FileFault (Trail × Option String) :=
  match refusal? path with
  | some fault => .error fault
  | none =>
    let names := ((steps path.text).reverse.dropWhile (·.isEmpty)).reverse
    match names.getLast? with
    | none => .ok ([], none)
    | some last =>
      match tree.followFrom path names.dropLast with
      | .error fault => .error fault
      | .ok (.vacant ..) => .error .notFound
      | .ok (.occupied trail) =>
        if !(tree.root.atEnd trail).isDirectory then .error .notDirectory
        else if last == "." || last == ".." then .ok (trail, none)
        else if nameLimit < last.utf8ByteSize then .error .nameTooLong
        else .ok (trail, some last)

theorem isFileName_of_last {text name : String}
    (h : (((steps text).reverse.dropWhile (·.isEmpty)).reverse).getLast? = some name)
    (hdots : ¬(name == "." || name == "..") = true) : isFileName name = true := by
  rw [List.getLast?_reverse] at h
  have hmem : name ∈ steps text := by
    have := (List.dropWhile_sublist _).subset (List.mem_of_head? h)
    simpa using this
  have hslash := not_mem_of_mem_steps hmem
  have hfull := List.head?_dropWhile_not (fun step : String => step.isEmpty) (steps text).reverse
  rw [h] at hfull
  simp_all [isFileName]

theorem isFileName_of_holder {tree : Tree} {path : Path} {trail : Trail} {name : String}
    (h : tree.holder path = .ok (trail, some name)) : isFileName name = true := by
  unfold holder at h
  split at h
  · cases h
  · dsimp only at h
    split at h
    · cases h
    · next hlast =>
      repeat' split at h
      all_goals cases h
      next hdots _ => exact isFileName_of_last hlast hdots

/-- Put an entry under a path whose last name is free, in an existing directory. -/
def add (tree : Tree) (path : Path) (entry : Entry) (hentry : entry.isSound = true) :
    Except FileFault Tree :=
  match hheld : tree.holder path with
  | .error fault => .error fault
  | .ok (_, none) => .error .alreadyExists
  | .ok (trail, some name) =>
    if ((tree.root.atEnd trail).member? name).isSome then .error .alreadyExists
    else .ok (tree.put trail name entry (isFileName_of_holder hheld) hentry)

/-- Make one directory in an existing one. -/
def makeDirectory (tree : Tree) (path : Path) : Except FileFault Tree :=
  tree.add path (.directory []) rfl

/-- Make the directories of a path from the given list of it and the paths above it. -/
def makeDirectoriesOf (tree : Tree) : List Path → Except FileFault Tree
  | [] => .error .notFound
  | path :: above =>
    if path.isEmpty then .ok tree
    else match tree.makeDirectory path with
      | .ok grown => .ok grown
      | .error .notFound =>
        match tree.makeDirectoriesOf above with
        | .error fault => .error fault
        | .ok grown =>
          match grown.makeDirectory path with
          | .ok done => .ok done
          | .error fault => if grown.isDirectory path then .ok grown else .error fault
      | .error fault => if tree.isDirectory path then .ok tree else .error fault

/-- Make a directory and those above it that are missing. -/
def makeDirectories (tree : Tree) (path : Path) : Except FileFault Tree :=
  tree.makeDirectoriesOf path.ancestors

/-- Write a file, which is made or replaced, in an existing directory. -/
def write (tree : Tree) (path : Path) (content : String) : Except FileFault Tree :=
  match hspot : tree.spot path with
  | .error fault => .error fault
  | .ok (.vacant trail name) =>
    .ok (tree.put trail name (.file content) (isSound_spot hspot).2 rfl)
  | .ok (.occupied []) => .error .isDirectory
  | .ok (.occupied ((name, entry) :: above)) =>
    if entry.isDirectory then .error .isDirectory
    else .ok (tree.put above name (.file content) (isSound_spot hspot _ List.mem_cons_self).1 rfl)

/-- Place a symbolic link under a free name of an existing directory. -/
def link (tree : Tree) (path : Path) (target : String) : Except FileFault Tree :=
  tree.add path (.link target) rfl

/-- Delete everything in the directory that a path leads to, and keep the directory. -/
def clear (tree : Tree) (path : Path) : Tree :=
  match tree.trail path with
  | .ok trail => tree.alter trail (fun _ => []) fun _ _ => rfl
  | .error _ => tree

/-- Whether a path goes on after its last name, which makes it a path to a directory. -/
def goesOn (path : Path) : Bool :=
  match (steps path.text).getLast? with
  | some last => last.isEmpty || last == "." || last == ".."
  | none => false

/-- Delete the entry at a path and everything in it. A symbolic link is deleted itself, unless the
path goes on after its name: then the directory it leads to is emptied and all else stays. A path
that leads nowhere changes nothing. -/
def delete (tree : Tree) (path : Path) : Tree :=
  match tree.holder path with
  | .error _ => tree
  | .ok (_, none) => tree.clear path
  | .ok (trail, some name) =>
    match (tree.root.atEnd trail).member? name with
    | none => tree
    | some entry =>
      if goesOn path && !entry.isDirectory then tree.clear path
      else
        tree.alter trail (fun members => members.filter (·.1 != name))
          fun _ => Entry.areSound_filter _

end PackagePlan.Tree
