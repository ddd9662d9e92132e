/-
  Build plans: every target with its source set, what it depends on and where its compilation
  looks for headers, and the products that consumers see.
-/
import PackagePlan.Headers
import PackagePlan.Plan.Fingerprint

namespace PackagePlan

/-- A product as consumers see it. -/
structure PlannedProduct where
  name : String
  targets : List String
  /-- The members and everything they depend on, in build order. -/
  closure : List String
  /-- The public headers of the closure, in ascending order. -/
  publicHeaders : List Path
  deriving DecidableEq, Inhabited, Repr

/-- How large a plan is. -/
structure PlanStats where
  totalTargets : Nat
  totalFiles : Nat
  compileUnits : Nat
  parallelGroups : Nat
  deriving DecidableEq, Inhabited, Repr

/-- The sizes of planned targets and their waves. -/
def PlanStats.of (targets : List PlannedTarget) (waves : List (List String)) : PlanStats :=
  { totalTargets := targets.length
    totalFiles := (targets.map fun target => target.sources.size).foldr (· + ·) 0
    compileUnits := (targets.map fun target => target.sources.units.length).foldr (· + ·) 0
    parallelGroups := waves.length }

/-- A resolved package. -/
structure Plan where
  package : String
  /-- The name of the chosen variant. -/
  variant : String
  toolsVersion : Version
  platform : Option Platform
  cLanguageStandard : Option LanguageStandard
  buildOrder : List String
  waves : List (List String)
  /-- The targets in build order. -/
  targets : List PlannedTarget
  products : List PlannedProduct
  stats : PlanStats
  headers : HeaderIndex
  deriving Inhabited

namespace Plan

/-- The planned target of a name. -/
def target? (plan : Plan) (name : String) : Option PlannedTarget :=
  plan.targets.find? (·.name == name)

/-- The planned product of a name. -/
def product? (plan : Plan) (name : String) : Option PlannedProduct :=
  plan.products.find? (·.name == name)

/-- The names of the products. -/
def productNames (plan : Plan) : List String := plan.products.map (·.name)

/-- Where a header that a target includes belongs. -/
def resolveInclude (plan : Plan) (target : String) (header : Path) :
    Except BuildError Inclusion :=
  plan.headers.resolve target header

/-- The digest of what a plan resolves to. -/
def fingerprint (plan : Plan) : String := PackagePlan.fingerprint plan.variant plan.targets

end Plan

/-- The product as a record. -/
def PlannedProduct.toJson (product : PlannedProduct) : Json :=
  .object [
    ("name", .string product.name),
    ("targets", .strings product.targets),
    ("closure", .strings product.closure),
    ("public_headers", SourceSet.pathsJson product.publicHeaders)]

/-- The platform as a record. -/
def Platform.toJson (platform : Platform) : Json :=
  .object [("os", .string platform.os.key), ("version", .string platform.version.render)]

/-- A stretch of time, given in nanoseconds, as a record. -/
def durationJson (nanoseconds : Nat) : Json :=
  .object [
    ("secs", .number (nanoseconds / 1000000000)),
    ("nanos", .number (nanoseconds % 1000000000))]

/-- The sizes as a record, with the time the resolution took when it was measured. -/
def PlanStats.toJson (stats : PlanStats) (nanoseconds : Option Nat) : Json :=
  .record [
    Json.field "total_targets" (.number stats.totalTargets),
    Json.field "total_files" (.number stats.totalFiles),
    Json.field "compile_units" (.number stats.compileUnits),
    Json.field "parallel_groups" (.number stats.parallelGroups),
    Json.field? "resolve_time" (nanoseconds.map durationJson)]

/-- The plan as a record, with the time the resolution took when it was measured. -/
def Plan.toJson (plan : Plan) (nanoseconds : Option Nat) : Json :=
  .object [
    ("package", .string plan.package),
    ("variant", .string plan.variant),
    ("tools_version", .string plan.toolsVersion.render),
    ("platform", (plan.platform.map Platform.toJson).getD .null),
    ("c_language_standard", standardJson plan.cLanguageStandard),
    ("build_order", .strings plan.buildOrder),
    ("parallel_groups", .array (plan.waves.map Json.strings)),
    ("targets", .array (plan.targets.map PlannedTarget.toJson)),
    ("products", .array (plan.products.map PlannedProduct.toJson)),
    ("fingerprint", .string plan.fingerprint),
    ("stats", plan.stats.toJson nanoseconds)]

end PackagePlan
