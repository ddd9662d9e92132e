/-
  The two layers of settings that live in files: those of a project and those of a user. A file is
  read, decoded and checked; what passes is a layer.
-/
import PackagePlan.Settings.Section

namespace PackagePlan

open Toml (Decoder Record Table)

/-- The settings of a project. -/
structure ProjectSettings where
  toolchain : Option ToolchainSection := none
  platform : Option PlatformSection := none
  build : Option BuildSection := none
  deriving DecidableEq, Inhabited, Repr

/-- The settings of a user, for projects that do not say otherwise. -/
structure UserSettings where
  defaults : Option DefaultsSection := none
  platform : Option PlatformSection := none
  deriving DecidableEq, Inhabited, Repr

/-- The table of a settings file. -/
def settingsTable (tree : Tree) (file : Path) : Except SettingsError Table :=
  match tree.read file with
  | .error .notFound => .error (.notFound file)
  | .error fault => .error (.unreadable fault)
  | .ok text =>
    match Table.parse? text with
    | none => .error (.malformed file .malformed)
    | some table => .ok table

namespace ProjectSettings

/-- The declared tools version. -/
def toolsVersion (project : ProjectSettings) : Option String :=
  project.toolchain.bind (·.toolsVersion)

/-- The declared description. -/
def descriptor (project : ProjectSettings) : Option Path := project.build.bind (·.descriptor)

/-- The declared output directory. -/
def output (project : ProjectSettings) : Option Path := project.build.bind (·.output)

/-- Whether targets are declared to be resolved side by side. -/
def parallel (project : ProjectSettings) : Option Bool := project.build.bind (·.parallel)

/-- Check the values of the settings. -/
def check (project : ProjectSettings) : Except SettingsError Unit := do
  checkToolsVersion "toolchain.tools_version" project.toolsVersion
  checkPlatform project.platform

/-- The settings, as a record. -/
def ofToml : Decoder ProjectSettings := fun value => do
  let record ← Record.of [
    Toml.field "toolchain" ToolchainSection.ofToml,
    Toml.field "platform" PlatformSection.ofToml,
    Toml.field "build" BuildSection.ofToml] value
  let toolchain ← record.named "toolchain" ToolchainSection.ofToml
  let platform ← record.named "platform" PlatformSection.ofToml
  let build ← record.named "build" BuildSection.ofToml
  return { toolchain, platform, build }

/-- The settings in a file. -/
def load (tree : Tree) (file : Path) : Except SettingsError ProjectSettings := do
  let table ← settingsTable tree file
  let project ← (ofToml (.table table)).mapError (SettingsError.malformed file)
  project.check
  return project

/-- The settings as a record; what is not set is left out. -/
def toJson (project : ProjectSettings) : Json :=
  .record [
    Json.field? "toolchain" (project.toolchain.map ToolchainSection.toJson),
    Json.field? "platform" (project.platform.map PlatformSection.toJson),
    Json.field? "build" (project.build.map BuildSection.toJson)]

end ProjectSettings

namespace UserSettings

/-- The tools version that is assumed. -/
def toolsVersion (user : UserSettings) : Option String := user.defaults.bind (·.toolsVersion)

/-- Whether targets are resolved side by side, where a project does not say. -/
def parallel (user : UserSettings) : Option Bool := user.defaults.bind (·.parallel)

/-- Check the values of the settings. -/
def check (user : UserSettings) : Except SettingsError Unit := do
  checkToolsVersion "defaults.tools_version" user.toolsVersion
  checkPlatform user.platform

/-- The settings, as a record. -/
def ofToml : Decoder UserSettings := fun value => do
  let record ← Record.of [
    Toml.field "defaults" DefaultsSection.ofToml,
    Toml.field "platform" PlatformSection.ofToml] value
  let defaults ← record.named "defaults" DefaultsSection.ofToml
  let platform ← record.named "platform" PlatformSection.ofToml
  return { defaults, platform }

/-- The settings in a file. -/
def load (tree : Tree) (file : Path) : Except SettingsError UserSettings := do
  let table ← settingsTable tree file
  let user ← (ofToml (.table table)).mapError (SettingsError.malformed file)
  user.check
  return user

/-- The settings as a record; what is not set is left out. -/
def toJson (user : UserSettings) : Json :=
  .record [
    Json.field? "defaults" (user.defaults.map DefaultsSection.toJson),
    Json.field? "platform" (user.platform.map PlatformSection.toJson)]

end UserSettings

end PackagePlan
