/-
  Targets: named units that compile on their own, with the directories, patterns and settings
  they declare; and products, the named artifacts that expose targets.
-/
import PackagePlan.Error
import PackagePlan.Json

namespace PackagePlan

/-- The C dialect a target is compiled in. -/
inductive LanguageStandard where
  | c89
  | c99
  | c11
  | c17
  | gnu89
  | gnu99
  | gnu11
  | gnu17
  deriving DecidableEq, Inhabited, Repr

namespace LanguageStandard

/-- Every dialect. -/
def all : List LanguageStandard := [c89, c99, c11, c17, gnu89, gnu99, gnu11, gnu17]

/-- The name of the dialect. -/
def render : LanguageStandard → String
  | c89 => "c89"
  | c99 => "c99"
  | c11 => "c11"
  | c17 => "c17"
  | gnu89 => "gnu89"
  | gnu99 => "gnu99"
  | gnu11 => "gnu11"
  | gnu17 => "gnu17"

/-- The dialect with a name. -/
def ofName? (name : String) : Option LanguageStandard := all.find? (·.render == name)

/-- The compiler flag that selects the dialect. -/
def flag (standard : LanguageStandard) : String := "-std=" ++ standard.render

end LanguageStandard

/-- Compiler settings of one target. -/
structure CSettings where
  /-- The dialect, in place of the package's. -/
  languageStandard : Option LanguageStandard := none
  /-- Definitions for the preprocessor, as `NAME` or `NAME=value`. -/
  defines : List String := []
  /-- Flags passed to the compiler as they are. -/
  unsafeFlags : List String := []
  deriving DecidableEq, Inhabited, Repr

/-- A named unit that compiles on its own, with paths of the given kind. -/
structure Target (P : Type := Path) where
  name : String
  /-- The targets it depends on, as declared. -/
  dependencies : List String := []
  /-- The target directory, relative to the package root. -/
  path : P
  /-- Files and directories to compile, relative to the target directory; none means all of it. -/
  sources : List P := []
  /-- Patterns of files to leave out, relative to the target directory. -/
  exclude : List String := []
  /-- The directory whose headers are the public interface, relative to the target directory. -/
  publicHeaders : Option P := none
  /-- Where the target's own compilation also looks for headers. -/
  headerSearchPaths : List P := []
  cSettings : Option CSettings := none
  deriving DecidableEq, Inhabited, Repr

namespace Target

/-- The places the target's files are taken from, relative to the package root. -/
def sourceRoots (target : Target) : List Path :=
  let base := target.path.normalize
  if target.sources.isEmpty then [base]
  else target.sources.map fun source => (base.join source).normalize

/-- The public headers directory, relative to the package root. -/
def publicHeadersDir? (target : Target) : Option Path :=
  target.publicHeaders.map fun dir => (target.path.join dir).normalize

/-- The private header search paths, relative to the target directory. -/
def privateSearchPaths (target : Target) : List Path :=
  target.headerSearchPaths.map Path.normalize

/-- The paths that have to stay inside the target directory. -/
def memberPaths {P : Type} (target : Target P) : List P :=
  target.sources ++ target.headerSearchPaths ++ target.publicHeaders.toList

/-- The first fault of the declaration, if it has one. -/
def fault? (target : Target) : Option TargetFault :=
  if target.name.isEmpty then some .emptyName
  else if target.path.normalize.isEmpty then some (.emptyPath target.name)
  else if !target.path.isContained then some (.pathOutside target.name target.path)
  else match target.memberPaths.find? (!·.isContained) with
    | some path => some (.memberOutside target.name path)
    | none =>
      if target.dependencies.any String.isEmpty then some (.emptyDependency target.name)
      else none

/-- Whether the declaration is without fault. -/
def isValid (target : Target) : Bool := target.fault?.isNone

section Paths
variable {ε P Q : Type}

/-- Every path of the declaration. -/
def paths (target : Target P) : List P := target.path :: target.memberPaths

/-- The target with its paths changed. -/
def map (f : P → Q) (target : Target P) : Target Q :=
  { target with
    path := f target.path
    sources := target.sources.map f
    publicHeaders := target.publicHeaders.map f
    headerSearchPaths := target.headerSearchPaths.map f }

/-- The target with its paths changed, if all of them can be. -/
def mapM (f : P → Except ε Q) (target : Target P) : Except ε (Target Q) := do
  let path ← f target.path
  let sources ← target.sources.mapM f
  let publicHeaders ← target.publicHeaders.mapM f
  let headerSearchPaths ← target.headerSearchPaths.mapM f
  return { target with path, sources, publicHeaders, headerSearchPaths }

end Paths

end Target

/-- A named artifact that exposes targets. -/
structure Product where
  name : String
  /-- The member targets. -/
  targets : List String
  deriving DecidableEq, Inhabited, Repr

/-- The settings as a record; what is empty is left out. -/
def CSettings.toJson (settings : CSettings) : Json :=
  .record [
    Json.field? "language_standard" (settings.languageStandard.map fun s => .string s.render),
    Json.listField? "defines" settings.defines,
    Json.listField? "unsafe_flags" settings.unsafeFlags]

/-- The target as a record; what is empty is left out. -/
def Target.toJson (target : Target) : Json :=
  .record [
    Json.field "name" (.string target.name),
    Json.listField? "dependencies" target.dependencies,
    Json.field "path" (.string target.path.text),
    Json.listField? "sources" (target.sources.map Path.text),
    Json.listField? "exclude" target.exclude,
    Json.field? "public_headers" (target.publicHeaders.map fun p => .string p.text),
    Json.listField? "header_search_paths" (target.headerSearchPaths.map Path.text),
    Json.field? "c_settings" (target.cSettings.map CSettings.toJson)]

/-- The product as a record. -/
def Product.toJson (product : Product) : Json :=
  .object [("name", .string product.name), ("targets", .strings product.targets)]

end PackagePlan
