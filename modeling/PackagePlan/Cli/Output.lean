/-
  What the commands print.
-/
import PackagePlan.Cli.Session
import PackagePlan.Tree.Edit

namespace PackagePlan.Cli

/-- Lines, each with its end. -/
def unlines (lines : List String) : String := String.join (lines.map fun line => line ++ "\n")

/-- A text on the left of a column. -/
def padRight (width : Nat) (text : String) : String :=
  text ++ String.ofList (List.replicate (width - text.length) ' ')

/-- A number on the right of a column. -/
def padLeft (width : Nat) (number : Nat) : String :=
  let digits := toString number
  String.ofList (List.replicate (width - digits.length) ' ') ++ digits

/-- A line across the page. -/
def rule : String := String.ofList (List.replicate 60 '=')

/-- Items with their numbers, counted from one. -/
def counted {α : Type} (items : List α) : List (Nat × α) :=
  items.zipIdx.map fun item => (item.2 + 1, item.1)

/-- A stretch of time in milliseconds, with two places. -/
def milliseconds (nanoseconds : Nat) : String :=
  let hundredths := (nanoseconds + 5000) / 10000
  let places := hundredths % 100
  toString (hundredths / 100) ++ "." ++ (if places < 10 then "0" else "") ++ toString places

/-- The build order or the waves, one line each. -/
def orderOutput (plan : Plan) (groups : Bool) : String :=
  unlines (if groups then plan.waves.map (" ".intercalate ·) else plan.buildOrder)

/-- The files of a target, of one kind or all, as the options want them. -/
def sourcesOutput (plan : Plan) (target : String) (kind : Option FileKind)
    (absolute json : Bool) : Except Failure String :=
  match plan.target? target with
  | none => .error ⟨"Unknown target '" ++ target ++ "' (targets: "
      ++ ", ".intercalate plan.buildOrder ++ ")", []⟩
  | some planned =>
    let files := match kind with
      | some kind => planned.sources.ofKind kind
      | none => planned.sources.files
    let files := if absolute then files.map planned.sources.root.join else files
    .ok (if json then (SourceSet.pathsJson files).render ++ "\n" else unlines (files.map Path.text))

/-- The products, one line each or as a record. -/
def productsOutput (plan : Plan) (json : Bool) : String :=
  if json then (Json.array (plan.products.map PlannedProduct.toJson)).render ++ "\n"
  else unlines (plan.products.map fun product =>
    product.name ++ "  targets: " ++ ", ".intercalate product.targets ++ "  closure: "
      ++ " -> ".intercalate product.closure ++ "  public headers: "
      ++ toString product.publicHeaders.length)

/-- Where a header belongs. -/
def inclusionOutput (plan : Plan) (target : String) (header : Path) : Except Failure String :=
  match plan.resolveInclude target header with
  | .ok .own => .ok ("visible: " ++ header.text ++ " is a header of " ++ target ++ "\n")
  | .ok (.offeredBy owner) =>
    .ok ("visible: " ++ header.text ++ " is a public header of " ++ owner ++ "\n")
  | .error error => .error ((Failure.ofBuild error).within
      ("'" ++ target ++ "' cannot include '" ++ header.text ++ "'"))

/-- The description in effect. -/
def descriptorOutput (session : Session) : Except Failure String := do
  let document ← (session.description.map Path.toOs).write.mapError Failure.ofBuild
  return "# source: " ++ session.source.render ++ "\n" ++ document

/-- One variant on a line. -/
def variantLine (selected : Option String) (name : String) (spec : VariantSpec) : String :=
  let products := match spec.products with
    | .all => "all"
    | .only names => ", ".intercalate names
  let platforms :=
    if spec.platforms.isEmpty then "any" else BuildError.renderMinimums spec.platforms.toList
  name ++ (if selected = some name then " (selected)" else "") ++ "  tools >= "
    ++ spec.minToolsVersion.render ++ "  products: " ++ products ++ "  platforms: " ++ platforms

/-- The variants by ascending threshold, and why none applies if none does. -/
def variantsOutput (session : Session) : String :=
  let table := session.description.variants
  let selection := session.toolsVersion.map fun version => (version, table.select version)
  let selected := match selection with
    | some (_, .ok variant) => some variant.name
    | _ => none
  let trouble := match selection with
    | some (version, .error error) =>
      ["(no variant matches " ++ version.render ++ ": " ++ error.message ++ ")"]
    | _ => []
  if table.isEmpty then unlines [Variant.defaultName ++ " (no variants declared)"]
  else
    let known := table.names.filterMap fun name =>
      (table.get? name).map fun spec => variantLine selected name spec
    unlines (known ++ trouble)

/-- One target of a plan, and its exclusions that cover nothing. -/
def targetLines (number : Nat) (target : PlannedTarget) : List String :=
  let sources := target.sources
  let line := "  " ++ toString number ++ ". " ++ padRight 12 target.name ++ " "
    ++ padLeft 4 sources.size ++ " files, "
    ++ padLeft 4 sources.units.length ++ " compile units, "
    ++ padLeft 4 sources.publicHeaders.length ++ " public headers"
  line :: sources.unusedExclusions.map fun pattern =>
    "     warning: exclusion '" ++ pattern ++ "' matched no files"

/-- A plan for people to read. -/
def planSummary (plan : Plan) (nanoseconds : Nat) : String :=
  let platform := (plan.platform.map Platform.render).getD "any platform"
  unlines (
    [rule,
      "Plan for " ++ plan.package ++ " (variant " ++ plan.variant ++ ", tools "
        ++ plan.toolsVersion.render ++ ", " ++ platform ++ ")",
      rule, "Build order:"]
    ++ (counted plan.targets).flatMap (fun item => targetLines item.1 item.2)
    ++ ["Parallel groups:"]
    ++ (counted plan.waves).map (fun item =>
      "  " ++ toString item.1 ++ ": " ++ ", ".intercalate item.2)
    ++ ["Products:"]
    ++ plan.products.map (fun product =>
      "  " ++ product.name ++ " [" ++ ", ".intercalate product.closure ++ "]")
    ++ [rule,
      "  " ++ toString plan.stats.totalTargets ++ " targets, "
        ++ toString plan.stats.totalFiles ++ " files, "
        ++ toString plan.stats.compileUnits ++ " compile units in "
        ++ milliseconds nanoseconds ++ "ms",
      "  Fingerprint: " ++ plan.fingerprint])

/-- The name of a written plan in the output directory. -/
def planFile : Path := ⟨"plan.json"⟩

/-- Write a plan into the output directory, which is made when it is missing. -/
def writePlan (session : Session) (tree : Tree) (text : String) : Except Failure (Path × Tree) := do
  let grown ← (tree.makeDirectories session.outputDir).mapError fun fault =>
    (Failure.ofFile fault).within
      ("Failed to create output directory " ++ session.outputDir.text)
  let path := session.outputDir.join planFile
  let written ← (grown.write path text).mapError fun fault =>
    (Failure.ofFile fault).within ("Failed to write " ++ path.text)
  return (path, written)

end PackagePlan.Cli
