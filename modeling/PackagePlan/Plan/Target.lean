/-
  Planned targets: a target with its source set, everything it depends on, and what its
  compilation needs to know.
-/
import PackagePlan.Description.Basic
import PackagePlan.Source.Set

namespace PackagePlan

/-- A target with its source set and what its compilation needs. -/
structure PlannedTarget where
  name : String
  /-- The direct dependencies, as declared. -/
  dependencies : List String
  /-- Everything the target depends on, in build order. -/
  closure : List String
  sources : SourceSet
  /-- Where the compilation looks for headers. -/
  includeDirs : List Path
  languageStandard : Option LanguageStandard
  defines : List String
  unsafeFlags : List String
  deriving DecidableEq, Inhabited, Repr

namespace PlannedTarget

/-- The target with its source set and its surroundings; its own dialect goes before that of the
package. -/
def of (target : Target) (sources : SourceSet) (closure : List String) (includeDirs : List Path)
    (standard : Option LanguageStandard) : PlannedTarget :=
  let settings := target.cSettings.getD {}
  { name := target.name
    dependencies := target.dependencies
    closure
    sources
    includeDirs
    languageStandard := settings.languageStandard <|> standard
    defines := settings.defines
    unsafeFlags := settings.unsafeFlags }

/-- The flags for the compiler: dialect, definitions, search directories, then the declared
flags. -/
def compilerFlags (target : PlannedTarget) : List String :=
  (target.languageStandard.map LanguageStandard.flag).toList
    ++ target.defines.map ("-D" ++ ·)
    ++ target.includeDirs.map (fun dir => "-I" ++ dir.text)
    ++ target.unsafeFlags

/-- The public headers, seen from where the package root is seen. -/
def publicHeaders (target : PlannedTarget) : List Path :=
  match target.sources.publicDir with
  | none => []
  | some dir => target.sources.publicHeaders.map dir.join

end PlannedTarget

/-- The target as a record. -/
def PlannedTarget.toJson (target : PlannedTarget) : Json :=
  .object [
    ("name", .string target.name),
    ("dependencies", .strings target.dependencies),
    ("closure", .strings target.closure),
    ("sources", target.sources.toJson),
    ("include_dirs", SourceSet.pathsJson target.includeDirs),
    ("language_standard", standardJson target.languageStandard),
    ("defines", .strings target.defines),
    ("unsafe_flags", .strings target.unsafeFlags)]

end PackagePlan
