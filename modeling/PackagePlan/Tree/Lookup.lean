/-
  Finding paths in a file tree: from directory to directory, through symbolic links, as far as
  the names lead. Reading, changing and walking a tree build on it.
-/
import PackagePlan.Tree.Basic

namespace PackagePlan

/-- A way down from the root: the names on it with the entries they lead to, the last one first. -/
abbrev Trail := List (String × Entry)

/-- The place at the end of a trail. -/
def Trail.place (trail : Trail) : Place := (trail.map (·.1)).reverse

/-- What holds of the way down into a sound tree. -/
def Trail.IsSound (trail : Trail) : Prop :=
  ∀ step ∈ trail, isFileName step.1 = true ∧ step.2.isSound = true

/-- Where a path leads: to an entry, or to a free name in a directory. -/
inductive Spot where
  | occupied (trail : Trail)
  | vacant (trail : Trail) (name : String)
  deriving Inhabited

/-- Where a path leads in a sound tree: down a sound trail, and a free name could hold a file. -/
def Spot.IsSound : Spot → Prop
  | .occupied trail => trail.IsSound
  | .vacant trail name => trail.IsSound ∧ isFileName name = true

namespace Entry

/-- The entry at the end of a trail from this one. -/
def atEnd (root : Entry) : Trail → Entry
  | [] => root
  | last :: _ => last.2

/-- The trail that goes on from another by names, as far as they lead. -/
def trailTo (root : Entry) (trail : Trail) : Place → Trail
  | [] => trail
  | name :: rest =>
    match (root.atEnd trail).member? name with
    | some next => root.trailTo ((name, next) :: trail) rest
    | none => trail

variable {root : Entry} {trail : Trail}

theorem isSound_atEnd (hroot : root.isSound = true) (htrail : trail.IsSound) :
    (root.atEnd trail).isSound = true := by
  cases trail with
  | nil => exact hroot
  | cons last above => exact (htrail last List.mem_cons_self).2

theorem isSound_cons {name : String} {next : Entry} (hroot : root.isSound = true)
    (htrail : trail.IsSound) (hnext : (root.atEnd trail).member? name = some next) :
    Trail.IsSound ((name, next) :: trail) :=
  List.forall_mem_cons.2 ⟨sound_of_member? (isSound_atEnd hroot htrail) hnext, htrail⟩

theorem isSound_trailTo (hroot : root.isSound = true) (htrail : trail.IsSound) (names : Place) :
    (root.trailTo trail names).IsSound := by
  induction names generalizing trail with
  | nil => exact htrail
  | cons name rest ih =>
    unfold trailTo
    split
    · next next hnext => exact ih (isSound_cons hroot htrail hnext)
    · exact htrail

end Entry

namespace Tree

/-- How many symbolic links one path may pass through. -/
def linkLimit : Nat := 40

/-- The longest file name, in bytes. -/
def nameLimit : Nat := 255

/-- The longest path, in bytes. -/
def pathLimit : Nat := 4095

/-- The stretches of a path between separators, which is what lookup consumes. -/
def steps (text : String) : List String := (Text.fields '/' text.toList).map String.ofList

/-- Where a path with this text starts when it is read from the end of a trail. -/
def origin (trail : Trail) (text : String) : Trail :=
  if text.toList.head? == some '/' then [] else trail

/-- Follow the steps of a path from the end of a trail. Where a symbolic link stands on the way,
`jump` follows the steps that the link puts in front of the rest. -/
def followUpTo (root : Entry) (jump : Trail → List String → Except FileFault Spot)
    (trail : Trail) : List String → Except FileFault Spot
  | [] => .ok (.occupied trail)
  | step :: rest =>
    if !(root.atEnd trail).isDirectory then .error .notDirectory
    else if step.isEmpty || step == "." then followUpTo root jump trail rest
    else if step == ".." then followUpTo root jump trail.tail rest
    else if nameLimit < step.utf8ByteSize then .error .nameTooLong
    else match (root.atEnd trail).member? step with
      | none => if rest.isEmpty then .ok (.vacant trail step) else .error .notFound
      | some (.link target) => jump (origin trail target) (steps target ++ rest)
      | some entry => followUpTo root jump ((step, entry) :: trail) rest

/-- Follow the steps of a path from the end of a trail, through at most `links` symbolic links. -/
def follow (root : Entry) : Nat → Trail → List String → Except FileFault Spot
  | 0 => followUpTo root fun _ _ => .error .tooManyLinks
  | links + 1 => followUpTo root (follow root links)

theorem not_mem_of_mem_steps {text step : String} (h : step ∈ steps text) :
    '/' ∉ step.toList := by
  obtain ⟨field, hfield, rfl⟩ := List.mem_map.1 h
  rw [String.toList_ofList]
  exact Text.not_mem_of_mem_fields hfield

theorem isSound_origin {trail : Trail} (htrail : trail.IsSound) (text : String) :
    (origin trail text).IsSound := by
  unfold origin
  split
  · exact List.forall_mem_nil _
  · exact htrail

theorem isSound_followUpTo {root : Entry} {jump : Trail → List String → Except FileFault Spot}
    {trail : Trail} {names : List String} {spot : Spot}
    (hjump : ∀ {trail names spot}, trail.IsSound → (∀ name ∈ names, '/' ∉ name.toList) →
      jump trail names = .ok spot → spot.IsSound)
    (hroot : root.isSound = true) (htrail : trail.IsSound)
    (hnames : ∀ name ∈ names, '/' ∉ name.toList)
    (h : followUpTo root jump trail names = .ok spot) : spot.IsSound := by
  fun_induction followUpTo root jump trail names with
  | case1 =>
    cases h
    exact htrail
  | case2 => cases h
  | case3 trail step rest _ _ ih => exact ih htrail (List.forall_mem_cons.1 hnames).2 h
  | case4 trail step rest _ _ _ ih =>
    have hup : Trail.IsSound trail.tail := fun up hmem => htrail up (List.mem_of_mem_tail hmem)
    exact ih hup (List.forall_mem_cons.1 hnames).2 h
  | case5 => cases h
  | case6 trail step rest _ hplain hup _ hfree hlast =>
    cases h
    refine ⟨htrail, ?_⟩
    have hslash := hnames step List.mem_cons_self
    simp_all [isFileName]
  | case7 => cases h
  | case8 trail step rest _ _ _ _ target hlink =>
    refine hjump (isSound_origin htrail target) (fun name hname => ?_) h
    rcases List.mem_append.1 hname with hname | hname
    · exact not_mem_of_mem_steps hname
    · exact hnames name (List.mem_cons_of_mem _ hname)
  | case9 trail step rest _ _ _ _ entry _ hnext ih =>
    exact ih (Entry.isSound_cons hroot htrail hnext) (List.forall_mem_cons.1 hnames).2 h

theorem isSound_follow {root : Entry} {links : Nat} {trail : Trail} {names : List String}
    {spot : Spot} (hroot : root.isSound = true) (htrail : trail.IsSound)
    (hnames : ∀ name ∈ names, '/' ∉ name.toList)
    (h : follow root links trail names = .ok spot) : spot.IsSound := by
  induction links generalizing trail names spot with
  | zero => exact isSound_followUpTo (fun _ _ hjump => by cases hjump) hroot htrail hnames h
  | succ links ih => exact isSound_followUpTo ih hroot htrail hnames h

/-- Why a path is refused before anything is looked up. -/
def refusal? (path : Path) : Option FileFault :=
  if path.text.toList.contains '\x00' then some .nulInName
  else if path.text.isEmpty then some .notFound
  else if pathLimit < path.text.utf8ByteSize then some .nameTooLong
  else none

/-- Follow names from where a path starts. -/
def followFrom (tree : Tree) (path : Path) (names : List String) : Except FileFault Spot :=
  let here := tree.root.trailTo [] tree.workingDirectory
  follow tree.root linkLimit (origin here path.text) names

theorem isSound_followFrom {tree : Tree} {path : Path} {names : List String} {spot : Spot}
    (hnames : ∀ name ∈ names, '/' ∉ name.toList) (h : tree.followFrom path names = .ok spot) :
    spot.IsSound := by
  have hhere : (tree.root.trailTo [] tree.workingDirectory).IsSound :=
    Entry.isSound_trailTo tree.sound (List.forall_mem_nil _) _
  exact isSound_follow tree.sound (isSound_origin hhere path.text) hnames h

/-- Where a path leads from the working directory. -/
def spot (tree : Tree) (path : Path) : Except FileFault Spot :=
  match refusal? path with
  | some fault => .error fault
  | none => tree.followFrom path (steps path.text)

theorem isSound_spot {tree : Tree} {path : Path} {place : Spot}
    (h : tree.spot path = .ok place) : place.IsSound := by
  unfold spot at h
  split at h
  · cases h
  · exact isSound_followFrom (fun _ => not_mem_of_mem_steps) h

/-- The trail to the entry a path leads to, links followed. -/
def trail (tree : Tree) (path : Path) : Except FileFault Trail :=
  match tree.spot path with
  | .ok (.occupied trail) => .ok trail
  | .ok (.vacant ..) => .error .notFound
  | .error fault => .error fault

/-- The place of the entry a path leads to. -/
def locate (tree : Tree) (path : Path) : Except FileFault Place :=
  (tree.trail path).map Trail.place

/-- The entry a path leads to. -/
def find (tree : Tree) (path : Path) : Except FileFault Entry :=
  (tree.trail path).map tree.root.atEnd

/-- Whether the path leads to an entry. -/
def exists? (tree : Tree) (path : Path) : Bool := (tree.find path).isOk

/-- Whether the path leads to a directory. -/
def isDirectory (tree : Tree) (path : Path) : Bool :=
  match tree.find path with
  | .ok entry => entry.isDirectory
  | .error _ => false

/-- Whether the path leads to a file. -/
def isFile (tree : Tree) (path : Path) : Bool :=
  match tree.find path with
  | .ok entry => entry.isFile
  | .error _ => false

/-- The content of the file a path leads to. -/
def read (tree : Tree) (path : Path) : Except FileFault String :=
  match tree.find path with
  | .error fault => .error fault
  | .ok (.file content) => .ok content
  | .ok (.directory _) => .error .isDirectory
  | .ok (.link _) => .error .notFound

end Tree

end PackagePlan
