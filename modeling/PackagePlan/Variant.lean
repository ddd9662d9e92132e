/-
  Variants: alternative settings of a package, chosen by the tools version of the consumer. The
  variant with the highest threshold that the tools version reaches applies; there is no fallback.
-/
import PackagePlan.Constraints

namespace PackagePlan

/-- The declared products that a variant exposes. -/
inductive ProductVisibility where
  | all
  | only (names : List String)
  deriving DecidableEq, Inhabited, Repr

/-- Whether a product of that name is exposed. -/
def ProductVisibility.exposes (visibility : ProductVisibility) (product : String) : Bool :=
  match visibility with
  | all => true
  | only names => names.contains product

/-- The settings of one variant. -/
structure VariantSpec where
  /-- The lowest tools version the variant applies to. -/
  minToolsVersion : Version
  products : ProductVisibility := .all
  platforms : PlatformConstraints := {}
  /-- Further exclusion patterns, by target name. -/
  extraExclude : Catalog String (List String) := ∅
  deriving DecidableEq, Inhabited

/-- A variant under its name. -/
structure Variant where
  name : String
  spec : VariantSpec
  deriving DecidableEq, Inhabited

/-- The name of the variant of a package that declares none. -/
def Variant.defaultName : String := "default"

/-- The variant of a package that declares none: it exposes everything and constrains nothing. -/
def Variant.implicit : Variant := ⟨Variant.defaultName, { minToolsVersion := ⟨0, 0, 0⟩ }⟩

/-- The name and the threshold. -/
def Variant.render (variant : Variant) : String :=
  variant.name ++ " (tools >= " ++ variant.spec.minToolsVersion.render ++ ")"

/-- The variants of a package by name. -/
abbrev VariantTable := Catalog String VariantSpec

namespace VariantTable

/-- The names by ascending threshold; names of one threshold in their own order. -/
def names (table : VariantTable) : List String :=
  (Version.sortOn (fun entry : String × VariantSpec => entry.2.minToolsVersion) table.entries).map
    (·.1)

/-- The first entry whose threshold stands in `seen`, with the name seen there last. -/
def firstShared? (seen : List (Version × String)) :
    List (String × VariantSpec) → Option BuildError
  | [] => none
  | (name, spec) :: rest =>
    match seen.lookup spec.minToolsVersion with
    | some other => some (.invalidDescriptor (.sharedThreshold other name spec.minToolsVersion))
    | none => firstShared? ((spec.minToolsVersion, name) :: seen) rest

/-- Check that no two variants share a threshold. -/
def check (table : VariantTable) : Except BuildError Unit :=
  match firstShared? [] table.entries with
  | some error => .error error
  | none => .ok ()

/-- The entry with the highest threshold that the tools version reaches. -/
def best? (capability : Version) : List (String × VariantSpec) → Option (String × VariantSpec)
  | [] => none
  | entry :: rest =>
    match best? capability rest with
    | none => if entry.2.minToolsVersion ≤ capability then some entry else none
    | some other =>
      if entry.2.minToolsVersion ≤ capability
          && decide (other.2.minToolsVersion < entry.2.minToolsVersion) then some entry
      else some other

/-- The variant for a tools version. -/
def select (table : VariantTable) (capability : Version) : Except BuildError Variant :=
  if table.isEmpty then .ok .implicit
  else do
    table.check
    match best? capability table.entries with
    | some (name, spec) => .ok ⟨name, spec⟩
    | none => .error (.invalidVariant capability)

end VariantTable

/-- The visibility as a record. -/
def ProductVisibility.toJson : ProductVisibility → Json
  | all => .string "all"
  | only names => .strings names

/-- The members of the record of a variant's settings; what is empty is left out. -/
def VariantSpec.members (spec : VariantSpec) : List (Option (String × Json)) := [
  Json.field "min_tools_version" (.string spec.minToolsVersion.render),
  Json.field "products" spec.products.toJson,
  Json.field? "platforms" (if spec.platforms.isEmpty then none else some spec.platforms.toJson),
  Json.field? "extra_exclude"
    (if spec.extraExclude.isEmpty then none
     else some (.object (spec.extraExclude.entries.map fun entry => (entry.1, .strings entry.2))))]

/-- The settings of a variant as a record. -/
def VariantSpec.toJson (spec : VariantSpec) : Json := .record spec.members

/-- The variant as a record: its name beside its settings. -/
def Variant.toJson (variant : Variant) : Json :=
  .record (Json.field "name" (.string variant.name) :: variant.spec.members)

end PackagePlan
