/-
  The sections of settings files, each setting optional, with the checks of their values.
-/
import PackagePlan.Description.Toml
import PackagePlan.Settings.Fault

namespace PackagePlan

/-- Whether a text is one to three groups of digits with dots between, as settings want a version
to be. Nothing may stand around it, and a group may be of any size. -/
def isVersionText (text : String) : Bool :=
  let parts := Text.fields '.' text.toList
  decide (parts.length ≤ 3) && parts.all Version.isNumber

/-- The section about the toolchain of the consumer. -/
structure ToolchainSection where
  toolsVersion : Option String := none
  deriving DecidableEq, Inhabited, Repr

/-- The section about the platform that is built for. -/
structure PlatformSection where
  os : Option String := none
  version : Option String := none
  deriving DecidableEq, Inhabited, Repr

/-- The section about the build. -/
structure BuildSection where
  /-- The package description. -/
  descriptor : Option Path := none
  /-- Where plans are written. -/
  output : Option Path := none
  parallel : Option Bool := none
  deriving DecidableEq, Inhabited, Repr

/-- The section of what a user has projects assume. -/
structure DefaultsSection where
  toolsVersion : Option String := none
  parallel : Option Bool := none
  deriving DecidableEq, Inhabited, Repr

/-- Refuse a tools version of the wrong form. -/
def checkToolsVersion (field : String) : Option String → Except SettingsError Unit
  | none => .ok ()
  | some text =>
    if isVersionText text then .ok () else .error (.invalidValue field (.toolsVersion text))

namespace PlatformSection

/-- Refuse a blank family. -/
def checkOs : Option String → Except SettingsError Unit
  | none => .ok ()
  | some text =>
    if (Text.trimmed text.toList).isEmpty then .error (.invalidValue "platform.os" .emptyOs)
    else .ok ()

/-- Refuse a platform version of the wrong form. -/
def checkVersion : Option String → Except SettingsError Unit
  | none => .ok ()
  | some text =>
    if isVersionText text then .ok ()
    else .error (.invalidValue "platform.version" (.platformVersion text))

/-- Check the values of the section. -/
def check (platform : PlatformSection) : Except SettingsError Unit := do
  checkOs platform.os
  checkVersion platform.version

end PlatformSection

/-- Check a section when there is one. -/
def checkPlatform : Option PlatformSection → Except SettingsError Unit
  | none => .ok ()
  | some platform => platform.check

open Toml (Decoder Record)

/-- The section, as a record. -/
def ToolchainSection.ofToml : Decoder ToolchainSection := fun value => do
  let record ← Record.of [Toml.field "tools_version" Toml.text] value
  let toolsVersion ← record.named "tools_version" Toml.text
  return { toolsVersion }

/-- The section, as a record. -/
def PlatformSection.ofToml : Decoder PlatformSection := fun value => do
  let record ← Record.of [Toml.field "os" Toml.text, Toml.field "version" Toml.text] value
  let os ← record.named "os" Toml.text
  let version ← record.named "version" Toml.text
  return { os, version }

/-- The section, as a record. -/
def BuildSection.ofToml : Decoder BuildSection := fun value => do
  let record ← Record.of [
    Toml.field "descriptor" Path.ofToml,
    Toml.field "output" Path.ofToml,
    Toml.field "parallel" Toml.flag] value
  let descriptor ← record.named "descriptor" Path.ofToml
  let output ← record.named "output" Path.ofToml
  let parallel ← record.named "parallel" Toml.flag
  return { descriptor, output, parallel }

/-- The section, as a record. -/
def DefaultsSection.ofToml : Decoder DefaultsSection := fun value => do
  let record ← Record.of [
    Toml.field "tools_version" Toml.text,
    Toml.field "parallel" Toml.flag] value
  let toolsVersion ← record.named "tools_version" Toml.text
  let parallel ← record.named "parallel" Toml.flag
  return { toolsVersion, parallel }

/-- The section as a record. -/
def ToolchainSection.toJson (toolchain : ToolchainSection) : Json :=
  .record [Json.field? "tools_version" (toolchain.toolsVersion.map .string)]

/-- The section as a record. -/
def PlatformSection.toJson (platform : PlatformSection) : Json :=
  .record [
    Json.field? "os" (platform.os.map .string),
    Json.field? "version" (platform.version.map .string)]

/-- The section as a record. -/
def BuildSection.toJson (build : BuildSection) : Json :=
  .record [
    Json.field? "descriptor" (build.descriptor.map fun path => .string path.text),
    Json.field? "output" (build.output.map fun path => .string path.text),
    Json.field? "parallel" (build.parallel.map .bool)]

/-- The section as a record. -/
def DefaultsSection.toJson (defaults : DefaultsSection) : Json :=
  .record [
    Json.field? "tools_version" (defaults.toolsVersion.map .string),
    Json.field? "parallel" (defaults.parallel.map .bool)]

end PackagePlan
