/-
  Minimum versions of operating systems. A family without a minimum is not constrained.
-/
import PackagePlan.Catalog
import PackagePlan.Error
import PackagePlan.Json

namespace PackagePlan

/-- The minimum version of each constrained family. -/
structure PlatformConstraints where
  minimums : Catalog OsFamily Version := ∅
  deriving DecidableEq, Inhabited

namespace PlatformConstraints

/-- Whether no family is constrained. -/
def isEmpty (c : PlatformConstraints) : Bool := c.minimums.isEmpty

/-- The minimums in the order of the families. -/
def toList (c : PlatformConstraints) : List (OsFamily × Version) := c.minimums.entries

/-- The minimum of a family. -/
def minimum? (c : PlatformConstraints) (os : OsFamily) : Option Version := c.minimums.get? os

/-- Require at least a version of a family, in place of what was required before. -/
def require (c : PlatformConstraints) (os : OsFamily) (minimum : Version) : PlatformConstraints :=
  ⟨c.minimums.insert os minimum⟩

/-- Refuse a platform that is older than the minimum of its family. -/
def check (c : PlatformConstraints) (platform : Platform) : Except BuildError Unit :=
  match c.minimum? platform.os with
  | some minimum =>
    if platform.version < minimum then .error (.platformUnsupported platform minimum) else .ok ()
  | none => .ok ()

/-- Add written requirements one after the other. -/
def requireAll (c : PlatformConstraints) :
    List (String × String) → Except BuildError PlatformConstraints
  | [] => .ok c
  | (os, version) :: rest => do
    let os ← OsFamily.parse os
    let version ← Version.parse version
    (c.require os version).requireAll rest

/-- Read a table of family names and versions, in the order of the names. -/
def ofTable (table : Catalog String String) : Except BuildError PlatformConstraints :=
  ({} : PlatformConstraints).requireAll table.entries

/-- The table of family identifiers and versions. -/
def toTable (c : PlatformConstraints) : Catalog String String :=
  .ofList (c.toList.map fun entry => (entry.1.key, entry.2.render))

/-- The table as a record. -/
def toJson (c : PlatformConstraints) : Json :=
  .object (c.toTable.entries.map fun entry => (entry.1, .string entry.2))

end PlatformConstraints

end PackagePlan
