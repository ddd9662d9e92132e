/-
  Package descriptions as TOML documents. Each part of a description has a decoder and an encoder;
  the encoder leaves out what is optional and empty, and the decoder fills it in again. A path that
  is no text cannot be encoded.
-/
import PackagePlan.Description.Basic
import PackagePlan.Toml.Decode
import PackagePlan.Toml.Grammar
import PackagePlan.Toml.Layout
import PackagePlan.Tree.Lookup

namespace PackagePlan

open Toml (Decoder Fault Record Table Value)

/-- A path, as a text. -/
def Path.ofToml : Decoder Path := fun value => (Toml.text value).map Path.mk

/-- The fault of a value for which a rule of the package was broken. -/
def BuildError.asFault (error : BuildError) : Fault := .rejected error.message

/-- A version, as a text. -/
def Version.ofToml : Decoder Version := fun value => do
  let text ← Toml.text value
  (Version.parse text).mapError BuildError.asFault

/-- The dialect with a name. -/
def LanguageStandard.ofName (name : String) : Except Fault LanguageStandard :=
  match LanguageStandard.ofName? name with
  | some standard => .ok standard
  | none => .error (.unknownVariant name (LanguageStandard.all.map LanguageStandard.render))

/-- Whether a value is a table or an array that holds nothing. -/
def Toml.Value.isHollow : Value → Bool
  | .table entries => entries.isEmpty
  | .array items => items.isEmpty
  | _ => false

/-- A dialect, as its name, alone or as the only key of a table that says no more about it. -/
def LanguageStandard.ofToml : Decoder LanguageStandard
  | .string name => LanguageStandard.ofName name
  | .table [(name, content)] => do
    let standard ← LanguageStandard.ofName name
    if content.isHollow then return standard else .error .mismatch
  | _ => .error .mismatch

/-- The products of a variant: the word for all of them, or a list of names. -/
def ProductVisibility.ofToml : Decoder ProductVisibility
  | .string keyword =>
    if keyword = "all" then .ok .all
    else .error (.rejected
      ("products must be \x22all\x22 or a list of product names, got \x22" ++ keyword ++ "\x22"))
  | .array items =>
    match items.mapM Toml.text with
    | .ok names => .ok (.only names)
    | .error _ => .error .mismatch
  | _ => .error .mismatch

/-- Platform constraints, as a table of families and versions. -/
def PlatformConstraints.ofToml : Decoder PlatformConstraints := fun value => do
  let table ← Toml.catalogOf Toml.text value
  (PlatformConstraints.ofTable table).mapError BuildError.asFault

namespace CSettings

/-- The fields of the settings. -/
def fields : List Toml.Field := [
  Toml.field "language_standard" LanguageStandard.ofToml,
  Toml.field "defines" (Toml.listOf Toml.text),
  Toml.field "unsafe_flags" (Toml.listOf Toml.text)]

/-- Compiler settings, as a record. -/
def ofToml : Decoder CSettings := fun value => do
  let record ← Record.of fields value
  let languageStandard ← record.optional "language_standard" LanguageStandard.ofToml
  let defines ← record.withDefault "defines" [] (Toml.listOf Toml.text)
  let unsafeFlags ← record.withDefault "unsafe_flags" [] (Toml.listOf Toml.text)
  return { languageStandard, defines, unsafeFlags }

end CSettings

namespace Target

/-- The fields of a target. -/
def fields : List Toml.Field := [
  Toml.field "name" Toml.text,
  Toml.field "dependencies" (Toml.listOf Toml.text),
  Toml.field "path" Path.ofToml,
  Toml.field "sources" (Toml.listOf Path.ofToml),
  Toml.field "exclude" (Toml.listOf Toml.text),
  Toml.field "public_headers" Path.ofToml,
  Toml.field "header_search_paths" (Toml.listOf Path.ofToml),
  Toml.field "c_settings" CSettings.ofToml]

/-- A target, as a record. -/
def ofToml : Decoder Target := fun value => do
  let record ← Record.of fields value
  let name ← record.required "name" Toml.text
  let dependencies ← record.withDefault "dependencies" [] (Toml.listOf Toml.text)
  let path ← record.required "path" Path.ofToml
  let sources ← record.withDefault "sources" [] (Toml.listOf Path.ofToml)
  let exclude ← record.withDefault "exclude" [] (Toml.listOf Toml.text)
  let publicHeaders ← record.optional "public_headers" Path.ofToml
  let headerSearchPaths ← record.withDefault "header_search_paths" [] (Toml.listOf Path.ofToml)
  let cSettings ← record.optional "c_settings" CSettings.ofToml
  return {
    name, dependencies, path, sources, exclude, publicHeaders, headerSearchPaths, cSettings }

end Target

namespace Product

/-- The fields of a product. -/
def fields : List Toml.Field := [
  Toml.field "name" Toml.text,
  Toml.field "targets" (Toml.listOf Toml.text)]

/-- A product, as a record. -/
def ofToml : Decoder Product := fun value => do
  let record ← Record.of fields value
  let name ← record.required "name" Toml.text
  let targets ← record.required "targets" (Toml.listOf Toml.text)
  return { name, targets }

end Product

namespace VariantSpec

/-- The fields of a variant. -/
def fields : List Toml.Field := [
  Toml.field "min_tools_version" Version.ofToml,
  Toml.field "products" ProductVisibility.ofToml,
  Toml.field "platforms" PlatformConstraints.ofToml,
  Toml.field "extra_exclude" (Toml.catalogOf (Toml.listOf Toml.text))]

/-- The settings of a variant, as a record. -/
def ofToml : Decoder VariantSpec := fun value => do
  let record ← Record.of fields value
  let minToolsVersion ← record.required "min_tools_version" Version.ofToml
  let products ← record.withDefault "products" .all ProductVisibility.ofToml
  let platforms ← record.withDefault "platforms" {} PlatformConstraints.ofToml
  let extraExclude ←
    record.withDefault "extra_exclude" ∅ (Toml.catalogOf (Toml.listOf Toml.text))
  return { minToolsVersion, products, platforms, extraExclude }

end VariantSpec

namespace PackageDescription

/-- The fields of a description. -/
def fields : List Toml.Field := [
  Toml.field "name" Toml.text,
  Toml.field "c_language_standard" LanguageStandard.ofToml,
  Toml.field "targets" (Toml.listOf Target.ofToml),
  Toml.field "products" (Toml.listOf Product.ofToml),
  Toml.field "variants" (Toml.catalogOf VariantSpec.ofToml)]

/-- A description, as a record. -/
def ofToml : Decoder PackageDescription := fun value => do
  let record ← Record.of fields value
  let name ← record.required "name" Toml.text
  let cLanguageStandard ← record.optional "c_language_standard" LanguageStandard.ofToml
  let targets ← record.withDefault "targets" [] (Toml.listOf Target.ofToml)
  let products ← record.withDefault "products" [] (Toml.listOf Product.ofToml)
  let variants ← record.withDefault "variants" ∅ (Toml.catalogOf VariantSpec.ofToml)
  return { name, cLanguageStandard, targets, products, variants }

end PackageDescription

/-- A dialect as its name. -/
def LanguageStandard.toToml (standard : LanguageStandard) : Value := .string standard.render

/-- A path as a text. -/
def Path.toToml (path : Path) : Value := .string path.text

/-- A path of a file system as one that is a text. -/
def OsPath.asText (path : OsPath) : Except BuildError Path :=
  match path.toPath? with
  | some plain => .ok plain
  | none => .error (.descriptorParse (.rejected "path contains invalid UTF-8 characters"))

/-- The slots of the settings. -/
def CSettings.slots (settings : CSettings) : List (String × Option Value) := [
  ("language_standard", settings.languageStandard.map LanguageStandard.toToml),
  ("defines", Toml.texts? settings.defines),
  ("unsafe_flags", Toml.texts? settings.unsafeFlags)]

/-- The settings as a table. -/
def CSettings.toToml (settings : CSettings) : Value := .table (Toml.present settings.slots)

/-- The slots of a target. -/
def Target.slots (target : Target) : List (String × Option Value) := [
  ("name", some (.string target.name)),
  ("dependencies", Toml.texts? target.dependencies),
  ("path", some target.path.toToml),
  ("sources", Toml.texts? (target.sources.map Path.text)),
  ("exclude", Toml.texts? target.exclude),
  ("public_headers", target.publicHeaders.map Path.toToml),
  ("header_search_paths", Toml.texts? (target.headerSearchPaths.map Path.text)),
  ("c_settings", target.cSettings.map CSettings.toToml)]

/-- The target as a table. -/
def Target.toToml (target : Target) : Value := .table (Toml.present target.slots)

/-- The slots of a product. -/
def Product.slots (product : Product) : List (String × Option Value) := [
  ("name", some (.string product.name)),
  ("targets", some (Toml.texts product.targets))]

/-- The product as a table. -/
def Product.toToml (product : Product) : Value := .table (Toml.present product.slots)

/-- The visibility as a word or a list. -/
def ProductVisibility.toToml : ProductVisibility → Value
  | all => .string "all"
  | only names => Toml.texts names

/-- The constraints as a table. -/
def PlatformConstraints.toToml (constraints : PlatformConstraints) : Value :=
  Toml.tableOf .string constraints.toTable.entries

/-- The slots of the settings of a variant. -/
def VariantSpec.slots (spec : VariantSpec) : List (String × Option Value) := [
  ("min_tools_version", some (.string spec.minToolsVersion.render)),
  ("products", some spec.products.toToml),
  ("platforms", Toml.unlessEmpty spec.platforms.isEmpty spec.platforms.toToml),
  ("extra_exclude", Toml.unlessEmpty spec.extraExclude.isEmpty
    (Toml.tableOf Toml.texts spec.extraExclude.entries))]

/-- The settings of a variant as a table. -/
def VariantSpec.toToml (spec : VariantSpec) : Value := .table (Toml.present spec.slots)

namespace PackageDescription

/-- The slots of a description. -/
def slots (description : PackageDescription) : List (String × Option Value) := [
  ("name", some (.string description.name)),
  ("c_language_standard", description.cLanguageStandard.map LanguageStandard.toToml),
  ("targets", some (.array (description.targets.map Target.toToml))),
  ("products", some (.array (description.products.map Product.toToml))),
  ("variants", Toml.unlessEmpty description.variants.isEmpty
    (Toml.tableOf VariantSpec.toToml description.variants.entries))]

/-- The description as a table. -/
def toTable (description : PackageDescription) : Table := Toml.present description.slots

/-- The text of the description as a document. -/
def render (description : PackageDescription) : String := Table.render description.toTable

/-- The document of a description with paths as a file system has them. A document is a text, so
each of them has to be one. -/
def write (description : PackageDescription OsPath) : Except BuildError String := do
  let plain ← description.mapM OsPath.asText
  return plain.render

/-- The description that a table holds. -/
def ofTable (table : Table) : Except BuildError PackageDescription :=
  (ofToml (.table table)).mapError BuildError.descriptorParse

/-- The description that a document holds. -/
def parse (text : String) : Except BuildError PackageDescription :=
  match Table.parse? text with
  | none => .error (.descriptorParse .malformed)
  | some table => ofTable table

/-- The description in a file of a tree. -/
def load (tree : Tree) (path : Path) : Except BuildError PackageDescription :=
  match tree.read path with
  | .error fault => .error (.descriptorRead path fault)
  | .ok text => parse text

end PackageDescription

end PackagePlan
