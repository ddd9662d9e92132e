/-
  A session: the package description and the settings that one command works with. Options go
  before the environment, the environment before the project, and the project before the user.
-/
import PackagePlan.Cli.Arguments
import PackagePlan.Cli.Failure
import PackagePlan.Description.Gnome
import PackagePlan.Plan.Report
import PackagePlan.Plan.State
import PackagePlan.Settings.Loader

namespace PackagePlan.Cli

/-- What a command finds around it. -/
structure Surroundings where
  tree : Tree
  environment : Environment
  /-- The directory the command is run in. -/
  directory : Path

/-- Where a package description comes from. -/
inductive DescriptionSource where
  | builtIn
  | file (path : Path)
  deriving DecidableEq, Inhabited, Repr

namespace DescriptionSource

/-- The source as messages name it. -/
def render : DescriptionSource → String
  | builtIn => "built-in GNOME descriptor"
  | file path => path.text

/-- The description at a source. -/
def load (tree : Tree) : DescriptionSource → Except Failure PackageDescription
  | builtIn => .ok .gnome
  | file path => (PackageDescription.load tree path).mapError fun error =>
      (Failure.ofBuild error).within ("Failed to load descriptor " ++ path.text)

end DescriptionSource

/-- The name of a description that is used without being asked for. -/
def conventionalFile : Path := ⟨"Package.toml"⟩

/-- The settings that one command works with. -/
structure Session where
  /-- The package root. -/
  root : Path
  description : PackageDescription
  source : DescriptionSource
  toolsVersion : Option Version
  platform : Option Platform
  /-- Whether targets may be resolved side by side. -/
  parallel : Bool
  outputDir : Path

namespace Session

/-- Where the settings of the project are looked for. -/
def start (around : Surroundings) (overrides : Overrides) : Path :=
  overrides.root.getD around.directory

/-- The settings of the session. -/
def settings (around : Surroundings) (overrides : Overrides) : Except Failure Settings :=
  let loaded :=
    ({} : SettingsLoader).loadFrom around.tree around.environment (start around overrides)
  loaded.1.mapError fun error =>
    (Failure.ofSettings error).within "Failed to load configuration"

/-- The package root: the option, the root of the project, or the directory of the command. -/
def packageRoot (around : Surroundings) (overrides : Overrides) (settings : Settings) : Path :=
  (overrides.root <|> settings.projectRoot).getD around.directory

/-- The file that is used without being asked for, if it exists. -/
def conventional? (tree : Tree) (root : Path) : Option Path :=
  let path := root.join conventionalFile
  if tree.exists? path then some path else none

/-- Where the description comes from: the option, the settings, the conventional file, or what is
built in. -/
def descriptionSource (tree : Tree) (overrides : Overrides) (settings : Settings) (root : Path) :
    DescriptionSource :=
  match overrides.descriptor <|> settings.descriptorPath <|> conventional? tree root with
  | some path => .file path
  | none => .builtIn

/-- The tools version: the option, or what the settings say. -/
def readToolsVersion (overrides : Overrides) (settings : Settings) :
    Except Failure (Option Version) :=
  match overrides.toolsVersion <|> settings.toolsVersion with
  | none => .ok none
  | some text => ((Version.parse text).mapError fun error =>
      (Failure.ofBuild error).within ("Invalid tools version '" ++ text ++ "'")).map some

/-- The text of the platform: the option, or what the settings say. -/
def platformText (overrides : Overrides) (settings : Settings) :
    Except Failure (Option String) :=
  match overrides.platform with
  | some text => .ok (some text)
  | none =>
    match settings.platform with
    | .error error => .error ((Failure.ofSettings error).within "Invalid platform configuration")
    | .ok setting => .ok (setting.map PlatformSetting.render)

/-- The platform. -/
def readPlatform (overrides : Overrides) (settings : Settings) :
    Except Failure (Option Platform) := do
  match ← platformText overrides settings with
  | none => return none
  | some text => ((Platform.parse text).mapError fun error =>
      (Failure.ofBuild error).within ("Invalid platform '" ++ text ++ "'")).map some

/-- Load a session. -/
def load (around : Surroundings) (overrides : Overrides) : Except Failure Session := do
  let found ← settings around overrides
  let root := packageRoot around overrides found
  let source := descriptionSource around.tree overrides found root
  let description ← source.load around.tree
  let toolsVersion ← readToolsVersion overrides found
  let platform ← readPlatform overrides found
  return {
    root, description, source, toolsVersion, platform
    parallel := found.parallel && !overrides.sequential
    outputDir := found.outputDir }

/-- What loading a session reports. -/
def loadReport (around : Surroundings) (overrides : Overrides) : List LogEvent :=
  SettingsLoader.report around.tree (start around overrides) ++
    match settings around overrides with
    | .error _ => []
    | .ok found =>
      let root := packageRoot around overrides found
      let source := descriptionSource around.tree overrides found root
      match source.load around.tree with
      | .error _ => []
      | .ok _ => [⟨.debug, "loaded package description",
          [("source", source.render), ("root", root.text)]⟩]

/-- The tools version that every command with a plan needs. -/
def requireToolsVersion (session : Session) : Except Failure Version :=
  match session.toolsVersion with
  | some version => .ok version
  | none => .error ⟨"No tools version configured: pass --tools-version, set " ++
      "GSTACK_TOOLS_VERSION, or add [toolchain] tools_version to gstack.toml", []⟩

/-- The resolver of the session. Source sets do not depend on the order in which they are
resolved, so the order is the sequential one in either mode. -/
def resolver (session : Session) : Resolver :=
  { description := session.description, packageRoot := session.root }

/-- Resolve the description of the session. -/
def resolve (session : Session) (tree : Tree) : Except Failure Plan := do
  let version ← session.requireToolsVersion
  match session.resolver.resolve tree version session.platform with
  | (.ok plan, _) => return plan
  | (.error error, resolver) =>
    throw ((Failure.ofBuild error).within ("Failed to resolve " ++ session.description.name
      ++ " for tools version " ++ version.render ++ " (" ++ resolver.state.render ++ ")"))

/-- What the resolution reports. -/
def resolveReport (session : Session) (tree : Tree) : List LogEvent :=
  match session.toolsVersion with
  | none => []
  | some version =>
    session.description.report tree session.root .sequential version session.platform

end Session

end PackagePlan.Cli
