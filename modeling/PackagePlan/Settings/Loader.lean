/-
  Loading settings. The settings of a project are looked for in a directory and upwards from it,
  and the nearest file counts, whatever is in it. Settings of the user that cannot be loaded count
  as absent. Where the user's file lies is found out once and remembered.
-/
import PackagePlan.Log
import PackagePlan.Settings.Effective

namespace PackagePlan

/-- The name of the settings file of a project. -/
def projectFile : Path := ⟨"gstack.toml"⟩

/-- The file with the settings of the user, below the home directory. -/
def userFileBelow (home : Path) : Path := (home.join ⟨".gstack"⟩).join ⟨"config.toml"⟩

/-- A loader of settings remembers where the file of the user lies. -/
structure SettingsLoader where
  userFile : Option Path := none
  deriving DecidableEq, Inhabited, Repr

namespace SettingsLoader

/-- The nearest directory, upwards from the start, with settings of a project. -/
def projectRoot? (tree : Tree) (start : Path) : Option Path :=
  start.ancestors.find? fun dir => tree.exists? (dir.join projectFile)

/-- The settings of the project that a directory belongs to, and its root. -/
def project (tree : Tree) (start : Path) :
    Except SettingsError (Option Path × ProjectSettings) :=
  match projectRoot? tree start with
  | none => .ok (none, {})
  | some root => (ProjectSettings.load tree (root.join projectFile)).map fun found =>
      (some root, found)

/-- The loader that knows where the file of the user lies, if that can be told. -/
def located (loader : SettingsLoader) (environment : Environment) : SettingsLoader :=
  match loader.userFile with
  | some _ => loader
  | none => ⟨environment.home.map userFileBelow⟩

/-- The settings in the file of the user; none when there is no file or it cannot be loaded. -/
def user (loader : SettingsLoader) (tree : Tree) : UserSettings :=
  match loader.userFile with
  | none => {}
  | some file => if tree.exists? file then ((UserSettings.load tree file).toOption.getD {}) else {}

/-- Complete the settings of a project. -/
def complete (loader : SettingsLoader) (tree : Tree) (environment : Environment)
    (root : Option Path) (project : ProjectSettings) : Except SettingsError Settings := do
  let project ← environment.override project
  return { project, user := loader.user tree, projectRoot := root }

/-- Load the settings in effect in a directory. -/
def loadFrom (loader : SettingsLoader) (tree : Tree) (environment : Environment) (start : Path) :
    Except SettingsError Settings × SettingsLoader :=
  match project tree start with
  | .error error => (.error error, loader)
  | .ok (root, found) =>
    let loader := loader.located environment
    (loader.complete tree environment root found, loader)

/-- Load the settings in effect with the project settings of a given file. -/
def loadFile (loader : SettingsLoader) (tree : Tree) (environment : Environment) (file : Path) :
    Except SettingsError Settings × SettingsLoader :=
  match ProjectSettings.load tree file with
  | .error error => (.error error, loader)
  | .ok found =>
    let loader := loader.located environment
    (loader.complete tree environment file.parent? found, loader)

/-- What loading the settings of a directory reports: the settings file that was found. -/
def report (tree : Tree) (start : Path) : List LogEvent :=
  match projectRoot? tree start with
  | none => []
  | some root => [⟨.debug, "found project config", [("path", (root.join projectFile).text)]⟩]

end SettingsLoader

end PackagePlan
