/-
  Package descriptions: targets, products and variants as declared. Choosing a variant and
  applying its settings gives a descriptor, the description of one build.
-/
import PackagePlan.Target
import PackagePlan.Variant

namespace PackagePlan

/-- What a package declares, for all variants together, with paths of the given kind. -/
structure PackageDescription (P : Type := Path) where
  name : String
  cLanguageStandard : Option LanguageStandard := none
  targets : List (Target P) := []
  products : List Product := []
  variants : VariantTable := ∅
  deriving DecidableEq, Inhabited

namespace PackageDescription

variable {ε P Q : Type}

/-- Every path of the description. -/
def paths (description : PackageDescription P) : List P := description.targets.flatMap Target.paths

/-- The description with its paths changed. -/
def map (f : P → Q) (description : PackageDescription P) : PackageDescription Q :=
  { description with targets := description.targets.map (Target.map f) }

/-- The description with its paths changed, if all of them can be. -/
def mapM (f : P → Except ε Q) (description : PackageDescription P) :
    Except ε (PackageDescription Q) := do
  let targets ← description.targets.mapM (Target.mapM f)
  return { description with targets }

end PackageDescription

/-- The description of one build, with the settings of the chosen variant applied. -/
structure Descriptor where
  package : String
  variant : Variant
  cLanguageStandard : Option LanguageStandard
  /-- The targets with the variant's exclusions, in declaration order. -/
  targets : List Target
  /-- The products that the variant exposes. -/
  products : List Product
  deriving DecidableEq, Inhabited

/-- The platform constraints of the chosen variant. -/
def Descriptor.platforms (descriptor : Descriptor) : PlatformConstraints :=
  descriptor.variant.spec.platforms

/-- Add to a list the patterns it does not have yet, in order. -/
def addPatterns (declared : List String) : List String → List String
  | [] => declared
  | pattern :: rest =>
    if pattern ∈ declared then addPatterns declared rest
    else addPatterns (declared ++ [pattern]) rest

/-- Add exclusion patterns to the first target of a name, if there is one. -/
def excludeIn (name : String) (patterns : List String) : List Target → Option (List Target)
  | [] => none
  | target :: rest =>
    if target.name = name then
      some ({ target with exclude := addPatterns target.exclude patterns } :: rest)
    else (excludeIn name patterns rest).map (target :: ·)

/-- Add the patterns of each entry to the target it names. -/
def excludeAll (variant : String) (targets : List Target) :
    List (String × List String) → Except BuildError (List Target)
  | [] => .ok targets
  | (name, patterns) :: rest =>
    match excludeIn name patterns targets with
    | some targets => excludeAll variant targets rest
    | none => .error (.unresolvedReference name (.variant variant))

namespace PackageDescription

/-- The variant for a tools version. -/
def select (description : PackageDescription) (capability : Version) :
    Except BuildError Variant :=
  description.variants.select capability

/-- Whether a product of that name is declared. -/
def declaresProduct (description : PackageDescription) (name : String) : Bool :=
  description.products.any (·.name == name)

/-- The first product a variant lists that is not declared. -/
def firstHiddenProduct? (description : PackageDescription) (variant : Variant) : Option String :=
  match variant.spec.products with
  | .all => none
  | .only names => names.find? fun name => !description.declaresProduct name

/-- Apply the settings of a variant: its extra exclusions are added to the targets they name, and
the products it does not expose are dropped. -/
def materialize (description : PackageDescription) (variant : Variant) :
    Except BuildError Descriptor :=
  match excludeAll variant.name description.targets variant.spec.extraExclude.entries with
  | .error error => .error error
  | .ok targets =>
    match description.firstHiddenProduct? variant with
    | some name => .error (.unresolvedReference name (.productList variant.name))
    | none =>
      .ok {
        package := description.name
        variant
        cLanguageStandard := description.cLanguageStandard
        targets
        products := description.products.filter fun p => variant.spec.products.exposes p.name }

/-- The descriptor for a tools version. -/
def descriptorFor (description : PackageDescription) (capability : Version) :
    Except BuildError Descriptor := do
  let variant ← description.select capability
  description.materialize variant

end PackageDescription

/-- A dialect, or null. -/
def standardJson (standard : Option LanguageStandard) : Json :=
  .ofOption (standard.map LanguageStandard.render)

/-- The description as a record; what is optional and empty is left out. -/
def PackageDescription.toJson (description : PackageDescription) : Json :=
  .record [
    Json.field "name" (.string description.name),
    Json.field? "c_language_standard"
      (description.cLanguageStandard.map fun s => .string s.render),
    Json.field "targets" (.array (description.targets.map Target.toJson)),
    Json.field "products" (.array (description.products.map Product.toJson)),
    Json.field? "variants"
      (if description.variants.isEmpty then none
       else some (.object (description.variants.entries.map fun v => (v.1, v.2.toJson))))]

/-- The descriptor as a record. -/
def Descriptor.toJson (descriptor : Descriptor) : Json :=
  .object [
    ("package", .string descriptor.package),
    ("variant", descriptor.variant.toJson),
    ("c_language_standard", standardJson descriptor.cLanguageStandard),
    ("targets", .array (descriptor.targets.map Target.toJson)),
    ("products", .array (descriptor.products.map Product.toJson))]

end PackagePlan
