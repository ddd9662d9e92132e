/-
  The settings in effect: those of the project, with the environment laid over them, before those
  of the user. A platform section of the project replaces the one of the user as a whole.
-/
import PackagePlan.Settings.Environment

namespace PackagePlan

/-- The settings in effect. -/
structure Settings where
  /-- The settings of the project, with those of the environment laid over them. -/
  project : ProjectSettings := {}
  user : UserSettings := {}
  /-- The directory with the settings of the project, if it has some. -/
  projectRoot : Option Path := none
  deriving DecidableEq, Inhabited, Repr

/-- A platform that settings give in full. -/
structure PlatformSetting where
  os : String
  version : String
  deriving DecidableEq, Inhabited, Repr

/-- The platform as it is written on a command line. -/
def PlatformSetting.render (setting : PlatformSetting) : String :=
  setting.os ++ ":" ++ setting.version

namespace Settings

/-- The output directory where none is set. -/
def defaultOutput : Path := ⟨"build"⟩

/-- The tools version in effect. -/
def toolsVersion (settings : Settings) : Option String :=
  settings.project.toolsVersion <|> settings.user.toolsVersion

/-- The platform section in effect. -/
def platformSection (settings : Settings) : Option PlatformSection :=
  settings.project.platform <|> settings.user.platform

/-- The platform in effect. -/
def platform (settings : Settings) : Except SettingsError (Option PlatformSetting) :=
  match settings.platformSection with
  | none => .ok none
  | some ⟨some os, some version⟩ => .ok (some ⟨os, version⟩)
  | some ⟨none, none⟩ => .ok none
  | some _ => .error (.invalidValue "platform" .halfPlatform)

/-- Whether targets are resolved side by side. -/
def parallel (settings : Settings) : Bool :=
  (settings.project.parallel <|> settings.user.parallel).getD true

/-- A path of the settings as seen from the project root. -/
def locate (settings : Settings) (path : Path) : Path :=
  match settings.projectRoot with
  | some root => if path.isAbsolute then path else root.join path
  | none => path

/-- The package description that is set. -/
def descriptorPath (settings : Settings) : Option Path :=
  settings.project.descriptor.map settings.locate

/-- The output directory. -/
def outputDir (settings : Settings) : Path :=
  settings.locate (settings.project.output.getD defaultOutput)

/-- Whether there is a project. -/
def isProject (settings : Settings) : Bool := settings.projectRoot.isSome

end Settings

end PackagePlan
