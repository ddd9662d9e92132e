/-
  Settings from environment variables, which go before those of the project. A variable changes
  the one setting it is for and opens the section of it where there is none.
-/
import PackagePlan.Settings.Layer

namespace PackagePlan

/-- The variables that hold settings, and the home directory of the user. -/
structure Environment where
  toolsVersion : Option String := none
  platformOs : Option String := none
  platformVersion : Option String := none
  parallel : Option String := none
  home : Option Path := none
  deriving DecidableEq, Inhabited, Repr

namespace Environment

/-- The truth value that a text stands for, in any case. -/
def truth? (text : String) : Option Bool :=
  let word := Text.lowercase text
  if word ∈ ["true", "1", "yes"] then some true
  else if word ∈ ["false", "0", "no"] then some false
  else none

/-- Set the tools version of a project. -/
def setToolsVersion (project : ProjectSettings) :
    Option String → Except SettingsError ProjectSettings
  | none => .ok project
  | some text => do
    checkToolsVersion "GSTACK_TOOLS_VERSION" (some text)
    return { project with
      toolchain := some { project.toolchain.getD {} with toolsVersion := some text } }

/-- Set the family of the platform of a project. -/
def setPlatformOs (project : ProjectSettings) : Option String → ProjectSettings
  | none => project
  | some os => { project with platform := some { project.platform.getD {} with os := some os } }

/-- Set the version of the platform of a project. -/
def setPlatformVersion (project : ProjectSettings) : Option String → ProjectSettings
  | none => project
  | some version =>
    { project with platform := some { project.platform.getD {} with version := some version } }

/-- Set whether the targets of a project are resolved side by side. -/
def setParallel (project : ProjectSettings) :
    Option String → Except SettingsError ProjectSettings
  | none => .ok project
  | some text =>
    match truth? text with
    | some value =>
      .ok { project with build := some { project.build.getD {} with parallel := some value } }
    | none => .error (.invalidValue "GSTACK_PARALLEL" (.truth (Text.lowercase text)))

/-- The settings of a project with those of the environment laid over them. -/
def override (environment : Environment) (project : ProjectSettings) :
    Except SettingsError ProjectSettings := do
  let project ← setToolsVersion project environment.toolsVersion
  let project := setPlatformOs project environment.platformOs
  let project := setPlatformVersion project environment.platformVersion
  let project ← setParallel project environment.parallel
  project.check
  return project

end Environment

end PackagePlan
