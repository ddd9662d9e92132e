/-
  Operating-system families, and platforms: a family at a version.
-/
import PackagePlan.Text.Lowercase
import PackagePlan.Version

namespace PackagePlan

/-- A family of operating systems. -/
inductive OsFamily where
  | macos
  | ios
  | tvos
  | watchos
  | visionos
  | linux
  | windows
  | android
  | wasi
  deriving DecidableEq, Inhabited, Repr

namespace OsFamily

/-- Every family, in the order in which constraints are listed. -/
def all : List OsFamily :=
  [macos, ios, tvos, watchos, visionos, linux, windows, android, wasi]

/-- The place of a family in that order. -/
def rank : OsFamily → Nat
  | macos => 0
  | ios => 1
  | tvos => 2
  | watchos => 3
  | visionos => 4
  | linux => 5
  | windows => 6
  | android => 7
  | wasi => 8

instance : Ord OsFamily := ⟨fun a b => compare a.rank b.rank⟩

theorem compare_eq_compare_rank (a b : OsFamily) : compare a b = compare a.rank b.rank := rfl

instance : Std.TransOrd OsFamily where
  eq_swap {a b} := by
    rw [compare_eq_compare_rank, compare_eq_compare_rank]
    exact Std.OrientedOrd.eq_swap
  isLE_trans {a b c} := by
    rw [compare_eq_compare_rank, compare_eq_compare_rank, compare_eq_compare_rank]
    exact Std.TransOrd.isLE_trans

/-- The identifier written in descriptors and on the command line. -/
def key : OsFamily → String
  | macos => "macos"
  | ios => "ios"
  | tvos => "tvos"
  | watchos => "watchos"
  | visionos => "visionos"
  | linux => "linux"
  | windows => "windows"
  | android => "android"
  | wasi => "wasi"

/-- The name shown to people. -/
def render : OsFamily → String
  | macos => "macOS"
  | ios => "iOS"
  | tvos => "tvOS"
  | watchos => "watchOS"
  | visionos => "visionOS"
  | linux => "Linux"
  | windows => "Windows"
  | android => "Android"
  | wasi => "WASI"

instance : ToString OsFamily := ⟨render⟩

/-- Names under which a family is known besides its identifier. -/
def aliases : List (String × OsFamily) :=
  [("macosx", macos), ("osx", macos), ("xros", visionos)]

/-- The family with a name, in any case and with blanks around it. -/
def parse? (text : String) : Option OsFamily :=
  let name := Text.lowercase (Text.trim text)
  match aliases.find? (·.1 == name) with
  | some (_, family) => some family
  | none => all.find? (·.key == name)

end OsFamily

/-- An operating-system family at a version. -/
structure Platform where
  os : OsFamily
  version : Version
  deriving DecidableEq, Inhabited, Repr

namespace Platform

/-- The family and the version, with a blank between. -/
def render (p : Platform) : String := p.os.render ++ " " ++ p.version.render

instance : ToString Platform := ⟨render⟩

/-- The characters that may stand between the family and the version of a written platform. -/
def isSeparator (c : Char) : Bool := c == ':' || c == '@'

/-- The texts of family and version in a written platform, split at the first separator. -/
def split? (text : String) : Option (String × String) :=
  (Text.splitFirst? isSeparator text.toList).map fun halves =>
    (String.ofList halves.1, String.ofList halves.2)

end Platform

end PackagePlan
