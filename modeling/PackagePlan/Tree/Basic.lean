/-
  A file tree: files with their content, symbolic links, and directories that hold further entries
  under names. The entries of a directory stand in the order of their names, and a place is given
  by the names that lead to it from the root. That every directory is of this form is part of a
  tree, so whoever changes one shows that the change keeps it.
-/
import PackagePlan.Catalog
import PackagePlan.Path

namespace PackagePlan

/-- The names that lead from the root to a place in a file tree. -/
abbrev Place := List String

/-- What stands at a place. -/
inductive Entry where
  | file (content : String)
  /-- A symbolic link to a path, read from the directory that holds the link. -/
  | link (target : String)
  /-- A directory with what it holds, smallest name first. -/
  | directory (members : List (String × Entry))
  deriving Inhabited

/-- The entries of a directory under their names. -/
abbrev Members := List (String × Entry)

namespace Entry

/-- Whether the entry is a directory. -/
def isDirectory : Entry → Bool
  | directory _ => true
  | _ => false

/-- Whether the entry is a file. -/
def isFile : Entry → Bool
  | file _ => true
  | _ => false

/-- What a directory holds under a name. -/
def member? : Entry → String → Option Entry
  | directory members, name => members.lookup name
  | _, _ => none

/-- What stands at a place below the entry. -/
def find? (entry : Entry) : Place → Option Entry
  | [] => some entry
  | name :: rest =>
    match entry.member? name with
    | some next => next.find? rest
    | none => none

/-- The entry with other members in the directory at a place, if one stands there. -/
def alter (change : Members → Members) : Place → Entry → Entry
  | [], directory members => directory (change members)
  | name :: rest, directory members =>
    match members.lookup name with
    | some next => directory (Catalog.place name (alter change rest next) members)
    | none => directory members
  | _, entry => entry

end Entry

namespace Entry

mutual

/-- Whether every directory in the entry holds its entries in good order. -/
def isSound : Entry → Bool
  | file _ => true
  | link _ => true
  | directory members => areSound members

/-- Whether entries stand in good order: each under a file name that is below those after it. -/
def areSound : Members → Bool
  | [] => true
  | (name, entry) :: rest =>
    isFileName name && entry.isSound && rest.all (fun other => compare name other.1 == .lt) &&
      areSound rest

end

theorem areSound_iff {members : Members} :
    areSound members = true ↔
      (members.Pairwise fun a b => compare a.1 b.1 = .lt) ∧
        ∀ member ∈ members, isFileName member.1 = true ∧ member.2.isSound = true := by
  induction members with
  | nil => simp [areSound]
  | cons first rest ih =>
    simp only [areSound, Bool.and_eq_true, ih, List.all_eq_true, beq_iff_eq,
      List.pairwise_cons, List.forall_mem_cons]
    constructor
    · rintro ⟨⟨⟨hname, hentry⟩, hbelow⟩, hrest, hall⟩
      exact ⟨⟨hbelow, hrest⟩, ⟨hname, hentry⟩, hall⟩
    · rintro ⟨⟨hbelow, hrest⟩, ⟨hname, hentry⟩, hall⟩
      exact ⟨⟨⟨hname, hentry⟩, hbelow⟩, hrest, hall⟩

theorem sound_of_member? {entry next : Entry} {name : String} (h : entry.isSound = true)
    (hnext : entry.member? name = some next) : isFileName name = true ∧ next.isSound = true := by
  cases entry with
  | file _ => simp [member?] at hnext
  | link _ => simp [member?] at hnext
  | directory members =>
    obtain ⟨before, after, rfl, -⟩ := List.lookup_eq_some_iff.1 hnext
    exact (areSound_iff.1 h).2 (name, next) (by simp)

theorem areSound_place {members : Members} {name : String} {entry : Entry}
    (h : areSound members = true) (hname : isFileName name = true)
    (hentry : entry.isSound = true) : areSound (Catalog.place name entry members) = true := by
  obtain ⟨hascending, hall⟩ := areSound_iff.1 h
  refine areSound_iff.2 ⟨Catalog.place_ascending hascending, fun member hmember => ?_⟩
  rcases Catalog.mem_place hmember with rfl | hmember
  · exact ⟨hname, hentry⟩
  · exact hall member hmember

theorem areSound_filter {members : Members} (keep : String × Entry → Bool)
    (h : areSound members = true) : areSound (members.filter keep) = true := by
  obtain ⟨hascending, hall⟩ := areSound_iff.1 h
  exact areSound_iff.2
    ⟨hascending.filter keep, fun member hmember => hall member (List.mem_filter.1 hmember).1⟩

/-- A change that keeps the order of one directory keeps it throughout. -/
theorem isSound_alter {change : Members → Members}
    (hchange : ∀ members, areSound members = true → areSound (change members) = true)
    (place : Place) {entry : Entry} (h : entry.isSound = true) :
    (alter change place entry).isSound = true := by
  induction place generalizing entry with
  | nil => cases entry <;> first | exact hchange _ h | exact h
  | cons name rest ih =>
    cases entry with
    | file _ => exact h
    | link _ => exact h
    | directory members =>
      unfold alter
      split
      · next next hnext =>
        obtain ⟨hname, hsound⟩ := sound_of_member? h hnext
        exact areSound_place h hname (ih hsound)
      · exact h

end Entry

/-- A file tree and the directory from which relative paths are read. -/
structure Tree where
  /-- What stands at the root. -/
  root : Entry := .directory []
  /-- The place relative paths start from. -/
  workingDirectory : Place := []
  /-- Every directory holds its entries in good order. -/
  sound : root.isSound = true := by decide

/-- Why the file system refuses a path. -/
inductive FileFault where
  | notFound
  | notDirectory
  | isDirectory
  | alreadyExists
  | tooManyLinks
  | nameTooLong
  | nulInName
  deriving DecidableEq, Inhabited, Repr

/-- The operating system's wording of a refusal. -/
def FileFault.message : FileFault → String
  | notFound => "No such file or directory (os error 2)"
  | notDirectory => "Not a directory (os error 20)"
  | isDirectory => "Is a directory (os error 21)"
  | alreadyExists => "File exists (os error 17)"
  | tooManyLinks => "Too many levels of symbolic links (os error 40)"
  | nameTooLong => "File name too long (os error 36)"
  | nulInName => "file name contained an unexpected NUL byte"

end PackagePlan
