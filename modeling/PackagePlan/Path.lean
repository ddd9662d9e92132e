/-
  File paths as text. A path prints exactly as it was built; its components, which is what the
  file system sees, decide equality, order and containment. Repeated and trailing separators and
  inner `.` do not count as components; a `.` at the very start of a relative path does. A file
  system also has paths that are no texts; `OsPath` holds the bytes of any path.
-/
import PackagePlan.Text.Fields

namespace PackagePlan

/-- A file path, held as the text it prints. -/
structure Path where
  /-- The text, with `/` between the names. -/
  text : String
  deriving DecidableEq, Inhabited, Repr

/-- One step of a path. -/
inductive Component where
  /-- The top of the file system, at the start of an absolute path. -/
  | root
  /-- A `.` at the start of a relative path. -/
  | current
  /-- A step up, `..`. -/
  | parent
  /-- A file or directory name. -/
  | name (text : String)
  deriving DecidableEq, Inhabited, Repr

/-- Whether a directory can hold an entry under a name: the name is one step of a path, and a step
down. -/
def isFileName (name : String) : Bool :=
  !name.toList.contains '/' && !List.contains ["", ".", ".."] name

namespace Component

/-- The place of each kind of component in the order, and its name. -/
def sortKey : Component → Nat × String
  | root => (0, "")
  | current => (1, "")
  | parent => (2, "")
  | name text => (3, text)

/-- First by kind, then by the bytes of the name. -/
instance : Ord Component := ⟨fun a b =>
  (compare a.sortKey.1 b.sortKey.1).then (compare a.sortKey.2 b.sortKey.2)⟩

/-- Whether the component stays in or goes below its directory. -/
def descends : Component → Bool
  | current | name _ => true
  | root | parent => false

/-- The text of a component that stands for itself in a path. -/
def render : Component → String
  | root => "/"
  | current => "."
  | parent => ".."
  | name text => text

/-- The component a stretch between separators stands for, if it counts as one. -/
def ofField? (field : List Char) : Option Component :=
  match field with
  | [] | ['.'] => none
  | ['.', '.'] => some parent
  | _ => some (name (String.ofList field))

end Component

namespace Path

instance : ToString Path := ⟨Path.text⟩

/-- What stands in front of the steps of a path: the root, a `.`, or nothing. -/
inductive Lead where
  | root
  | current
  | none
  deriving DecidableEq

/-- The text of a lead. -/
def Lead.chars : Lead → List Char
  | root => ['/']
  | current => ['.']
  | none => []

/-- The component of a lead. -/
def Lead.component? : Lead → Option Component
  | root => some .root
  | current => some .current
  | none => Option.none

/-- The lead of a path and the text after it. -/
def splitLead : List Char → Lead × List Char
  | '/' :: body => (.root, body)
  | ['.'] => (.current, [])
  | '.' :: '/' :: body => (.current, '/' :: body)
  | body => (.none, body)

/-- The lead of the path. -/
def lead (p : Path) : Lead := (splitLead p.text.toList).1

/-- The stretches between separators after the lead. -/
def body (p : Path) : List (List Char) := Text.fields '/' (splitLead p.text.toList).2

/-- The steps of the path. -/
def components (p : Path) : List Component :=
  p.lead.component?.toList ++ p.body.filterMap Component.ofField?

/-- Whether the path starts at the root. -/
def isAbsolute (p : Path) : Bool := p.lead == .root

/-- Whether the text is empty. -/
def isEmpty (p : Path) : Bool := p.text.isEmpty

/-- Equality of paths as the file system sees them. -/
def same (p q : Path) : Bool := p.components == q.components

/-- The order of paths: component by component. -/
def order (p q : Path) : Ordering := compare p.components q.components

/-- The path `q` seen from `p`: a separator goes between unless `p` is empty or has one at its
end, and an absolute `q` stands alone. -/
def join (p q : Path) : Path :=
  if q.isAbsolute then q
  else if p.text.isEmpty || p.text.toList.getLast? == some '/' then ⟨p.text ++ q.text⟩
  else ⟨p.text ++ "/" ++ q.text⟩

/-- The path that joins components one after the other. -/
def ofComponents (steps : List Component) : Path :=
  steps.foldl (fun p step => p.join ⟨step.render⟩) ⟨""⟩

/-- The path without its `.` components, in the shortest spelling. -/
def normalize (p : Path) : Path := ofComponents (p.components.filter (· ≠ .current))

/-- Whether every step stays in or goes below the directory the path starts from. -/
def isContained (p : Path) : Bool := p.components.all Component.descends

/-- Whether a stretch between separators is no component. -/
def isVoid (field : List Char) : Bool := (Component.ofField? field).isNone

/-- Stretches without the void ones at the end. -/
def trimVoid (fields : List (List Char)) : List (List Char) :=
  (fields.reverse.dropWhile isVoid).reverse

/-- Stretches without their first `n` components. -/
def dropSteps : Nat → List (List Char) → List (List Char)
  | 0, fields => fields
  | _, [] => []
  | n + 1, field :: rest => if isVoid field then dropSteps (n + 1) rest else dropSteps n rest

/-- The path of a lead and the stretches after it. -/
def ofBody (lead : Lead) (fields : List (List Char)) : Path :=
  ⟨String.ofList (lead.chars ++ Text.joined '/' fields)⟩

/-- The path without its last component; a root and an empty path have no parent. -/
def parent? (p : Path) : Option Path :=
  match trimVoid p.body with
  | [] => if p.lead = .current then some ⟨""⟩ else none
  | fields => some (ofBody p.lead (trimVoid fields.dropLast))

/-- The path and the paths above it, as far as `fuel` goes. -/
def climb : Nat → Path → List Path
  | 0, p => [p]
  | fuel + 1, p =>
    p :: match p.parent? with
      | some above => climb fuel above
      | none => []

/-- The path and the paths above it, nearest first. -/
def ancestors (p : Path) : List Path := climb p.components.length p

/-- What is left of the path after its first `n` components. -/
def dropComponents (p : Path) (n : Nat) : Path :=
  if n = 0 then ofBody p.lead (trimVoid p.body)
  else
    let steps := n - p.lead.component?.toList.length
    ofBody .none (trimVoid ((dropSteps steps p.body).dropWhile isVoid))

/-- Whether the components of `base` are the first ones of the path. -/
def startsWith (p base : Path) : Bool := base.components.isPrefixOf p.components

/-- The path seen from `base`, if it lies there. -/
def relativeTo? (p base : Path) : Option Path :=
  if p.startsWith base then some (p.dropComponents base.components.length) else none

/-- The name in the last component. -/
def fileName? (p : Path) : Option String :=
  match p.components.getLast? with
  | some (.name text) => some text
  | _ => none

/-- The text after the last `.` of the file name, unless the name starts with that `.`. -/
def extension? (p : Path) : Option String := do
  let file ← p.fileName?
  let parts := Text.fields '.' file.toList
  let stem := Text.joined '.' parts.dropLast
  if stem.isEmpty then none else parts.getLast?.map String.ofList

/-- Whether the list holds the path, as the file system sees it. -/
def memOf (p : Path) (paths : List Path) : Bool := paths.any p.same

/-- Whether an ascending list holds the path: the half of the list that it can lie in is searched,
until one path is left. -/
def foundIn (p : Path) (paths : List Path) : Bool :=
  match hhalf : paths.drop (paths.length / 2) with
  | [] => false
  | middle :: above =>
    if hone : paths.length = 1 then middle.order p == .eq
    else if middle.order p == .gt then p.foundIn (paths.take (paths.length - paths.length / 2))
    else p.foundIn (middle :: above)
termination_by paths.length
decreasing_by
  all_goals
    have hlength : paths.length - paths.length / 2 = above.length + 1 := by
      simpa using congrArg List.length hhalf
    simp only [List.length_take, List.length_cons]
    omega

/-- Place a path in an ascending list, unless an equal one is there. -/
def place (p : Path) : List Path → List Path
  | [] => [p]
  | q :: rest =>
    match p.order q with
    | .lt => p :: q :: rest
    | .eq => q :: rest
    | .gt => q :: place p rest

/-- The paths in ascending order, each once. -/
def sorted (paths : List Path) : List Path := paths.foldl (fun done p => p.place done) []

end Path

/-- A path as a file system has it. Its bytes need not spell a text. -/
structure OsPath where
  bytes : ByteArray
  deriving Inhabited

/-- The bytes of a path. -/
def Path.toOs (p : Path) : OsPath := ⟨p.text.toUTF8⟩

/-- The path whose text the bytes spell, if they spell one. -/
def OsPath.toPath? (p : OsPath) : Option Path := (String.fromUTF8? p.bytes).map Path.mk

end PackagePlan
