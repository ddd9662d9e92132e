/-
  Settings and the layers they are put together from. `Environment.LaidOver` says, setting by
  setting, what variables make of the settings of a project, and `UserLayer` which settings of the
  user count. What is loaded, from a directory or with a given file, has been laid over in this
  way and has such a layer below it (`laidOver_of_override`, `loadFrom_eq_ok`, `loadFile_eq_ok`).
-/
import PackagePlan.Proofs.Tree.Growth
import PackagePlan.Settings.Loader

namespace PackagePlan

/-- The first of several values that is there. -/
def firstOf {α : Type} (values : List (Option α)) : Option α := values.findSome? id

section
variable {α : Type}

@[simp] theorem firstOf_nil : firstOf ([] : List (Option α)) = none := rfl

@[simp] theorem firstOf_cons (value : Option α) (rest : List (Option α)) :
    firstOf (value :: rest) = value.or (firstOf rest) := by
  cases value <;> rfl

end

/-! ## Variables over the settings of a project -/

namespace Environment

variable {environment : Environment} {project laid : ProjectSettings}

/-- A platform section with the variables laid over it. One of them is enough to open a section
    where there is none. -/
def platformOver (environment : Environment) (platform : Option PlatformSection) :
    Option PlatformSection :=
  match environment.platformOs, environment.platformVersion with
  | none, none => platform
  | os, version => some {
      os := firstOf [os, platform.bind (·.os)]
      version := firstOf [version, platform.bind (·.version)] }

/-- What the settings of a project are with those of the environment laid over them. -/
structure LaidOver (environment : Environment) (project laid : ProjectSettings) : Prop where
  toolsVersion : laid.toolsVersion = firstOf [environment.toolsVersion, project.toolsVersion]
  platform : laid.platform = environment.platformOver project.platform
  /-- The variable, if it is set, stands for a truth value, and this goes first. -/
  parallel : ∃ stated, environment.parallel.mapM truth? = some stated ∧
    laid.parallel = firstOf [stated, project.parallel]
  descriptor : laid.descriptor = project.descriptor
  output : laid.output = project.output

theorem setToolsVersion_eq_ok {stated : Option String}
    (h : setToolsVersion project stated = .ok laid) :
    laid.toolsVersion = firstOf [stated, project.toolsVersion] ∧
      laid.platform = project.platform ∧ laid.build = project.build := by
  cases stated with
  | none =>
    cases h
    exact ⟨by simp, rfl, rfl⟩
  | some text =>
    obtain ⟨_, -, h⟩ := Outcome.bind_eq_ok.1 h
    cases h
    exact ⟨rfl, rfl, rfl⟩

theorem setParallel_eq_ok {stated : Option String} (h : setParallel project stated = .ok laid) :
    laid.toolchain = project.toolchain ∧ laid.platform = project.platform ∧
      laid.descriptor = project.descriptor ∧ laid.output = project.output ∧
      ∃ value, stated.mapM truth? = some value ∧
        laid.parallel = firstOf [value, project.parallel] := by
  cases stated with
  | none =>
    cases h
    exact ⟨rfl, rfl, rfl, rfl, none, rfl, by simp⟩
  | some text =>
    unfold setParallel at h
    dsimp only at h
    split at h
    · next value hvalue =>
      cases h
      have hmap : (some text).mapM truth? = some (some value) := by
        show (truth? text).map some = some (some value)
        rw [hvalue]
        rfl
      cases hbuild : project.build <;>
        exact ⟨rfl, rfl, by simp [ProjectSettings.descriptor, hbuild],
          by simp [ProjectSettings.output, hbuild], some value, hmap, rfl⟩
    · cases h

theorem platform_set :
    (setPlatformVersion (setPlatformOs project environment.platformOs)
      environment.platformVersion).platform = environment.platformOver project.platform := by
  unfold platformOver
  cases environment.platformOs <;> cases environment.platformVersion <;>
    cases hplatform : project.platform <;>
    simp [setPlatformOs, setPlatformVersion, hplatform]

theorem toolchain_set (os version : Option String) :
    (setPlatformVersion (setPlatformOs project os) version).toolchain = project.toolchain := by
  cases os <;> cases version <;> rfl

theorem build_set (os version : Option String) :
    (setPlatformVersion (setPlatformOs project os) version).build = project.build := by
  cases os <;> cases version <;> rfl

/-- What the environment makes of the settings of a project, if it is not refused. -/
theorem laidOver_of_override (h : environment.override project = .ok laid) :
    environment.LaidOver project laid := by
  obtain ⟨first, hfirst, h⟩ := Outcome.bind_eq_ok.1 h
  obtain ⟨last, hlast, h⟩ := Outcome.bind_eq_ok.1 h
  obtain ⟨_, -, h⟩ := Outcome.bind_eq_ok.1 h
  cases h
  obtain ⟨htools, hplatform, hbuild⟩ := setToolsVersion_eq_ok hfirst
  obtain ⟨htoolchain, hplatform', hdescriptor, houtput, value, hvalue, hparallel⟩ :=
    setParallel_eq_ok hlast
  rw [toolchain_set] at htoolchain
  rw [platform_set, hplatform] at hplatform'
  have hsame := (build_set environment.platformOs environment.platformVersion).trans hbuild
  have hversion : laid.toolsVersion = first.toolsVersion := by
    unfold ProjectSettings.toolsVersion
    rw [htoolchain]
  unfold ProjectSettings.descriptor at hdescriptor
  unfold ProjectSettings.output at houtput
  unfold ProjectSettings.parallel at hparallel
  rw [hsame] at hdescriptor houtput hparallel
  exact {
    toolsVersion := hversion.trans htools
    platform := hplatform'
    parallel := ⟨value, hvalue, hparallel⟩
    descriptor := hdescriptor
    output := houtput }

end Environment

/-! ## Layers of a load -/

/-- Which settings of the user count, with their file at a path: those in the file if it can be
    loaded, and none if its place cannot be told, if it is missing, or if it is broken. -/
inductive UserLayer (tree : Tree) : Option Path → UserSettings → Prop
  | unknown : UserLayer tree none {}
  | missing {file : Path} (h : tree.exists? file = false) : UserLayer tree (some file) {}
  | broken {file : Path} {error : SettingsError} (h : UserSettings.load tree file = .error error) :
      UserLayer tree (some file) {}
  | held {file : Path} {user : UserSettings} (h : UserSettings.load tree file = .ok user) :
      UserLayer tree (some file) user

theorem settingsTable_eq_ok {tree : Tree} {file : Path} {table : Toml.Table} :
    settingsTable tree file = .ok table ↔
      ∃ text, tree.read file = .ok text ∧ Toml.Table.parse? text = some table := by
  unfold settingsTable
  cases tree.read file with
  | error fault => cases fault <;> simp
  | ok text => cases hparse : Toml.Table.parse? text <;> simp [hparse]

theorem UserSettings.exists_read_of_load {tree : Tree} {file : Path} {user : UserSettings}
    (h : UserSettings.load tree file = .ok user) : ∃ text, tree.read file = .ok text := by
  obtain ⟨table, htable, -⟩ := Outcome.bind_eq_ok.1 h
  obtain ⟨text, htext, -⟩ := settingsTable_eq_ok.1 htable
  exact ⟨text, htext⟩

namespace SettingsLoader

variable {loader : SettingsLoader} {tree : Tree} {environment : Environment} {start file : Path}
  {root : Option Path} {project : ProjectSettings} {user : UserSettings} {settings : Settings}

theorem user_of_exists (hfile : loader.userFile = some file) (h : tree.exists? file = true) :
    loader.user tree = (UserSettings.load tree file).toOption.getD {} := by
  unfold SettingsLoader.user
  rw [hfile]
  exact if_pos h

theorem user_of_missing (hfile : loader.userFile = some file) (h : tree.exists? file = false) :
    loader.user tree = {} := by
  unfold SettingsLoader.user
  rw [hfile]
  exact if_neg (by simp [h])

/-- The settings of the user in effect are those that count. -/
theorem userLayer_iff : UserLayer tree loader.userFile user ↔ user = loader.user tree := by
  constructor
  · intro h
    generalize hfile : loader.userFile = path at h
    cases h with
    | unknown =>
      unfold SettingsLoader.user
      rw [hfile]
    | missing hmissing => exact (user_of_missing hfile hmissing).symm
    | @broken file error hbroken =>
      cases hexists : tree.exists? file with
      | false => exact (user_of_missing hfile hexists).symm
      | true =>
        rw [user_of_exists hfile hexists, hbroken]
        rfl
    | @held file user hheld =>
      obtain ⟨text, htext⟩ := UserSettings.exists_read_of_load hheld
      rw [user_of_exists hfile (Tree.exists?_of_read htext), hheld]
      rfl
  · rintro rfl
    cases hfile : loader.userFile with
    | none =>
      unfold SettingsLoader.user
      rw [hfile]
      exact .unknown
    | some file =>
      cases hexists : tree.exists? file with
      | false =>
        rw [user_of_missing hfile hexists]
        exact .missing hexists
      | true =>
        rw [user_of_exists hfile hexists]
        cases hload : UserSettings.load tree file with
        | ok held => exact .held hload
        | error error => exact .broken hload

theorem complete_eq_ok :
    loader.complete tree environment root project = .ok settings ↔
      ∃ laid, environment.override project = .ok laid ∧
        settings = ⟨laid, loader.user tree, root⟩ := by
  unfold complete
  rw [Outcome.bind_eq_ok]
  exact exists_congr fun laid => and_congr_right fun _ =>
    ⟨fun h => (Except.ok.inj h).symm, fun h => h ▸ rfl⟩

theorem loadFrom_eq_ok :
    (loader.loadFrom tree environment start).1 = .ok settings ↔
      ∃ root project laid, SettingsLoader.project tree start = .ok (root, project) ∧
        environment.override project = .ok laid ∧
        settings = ⟨laid, (loader.located environment).user tree, root⟩ := by
  unfold loadFrom
  cases SettingsLoader.project tree start with
  | error error => simp
  | ok found =>
    obtain ⟨root, project⟩ := found
    dsimp only
    rw [complete_eq_ok]
    simp

theorem loadFile_eq_ok :
    (loader.loadFile tree environment file).1 = .ok settings ↔
      ∃ project laid, ProjectSettings.load tree file = .ok project ∧
        environment.override project = .ok laid ∧
        settings = ⟨laid, (loader.located environment).user tree, file.parent?⟩ := by
  unfold loadFile
  cases ProjectSettings.load tree file with
  | error error => simp
  | ok found =>
    dsimp only
    rw [complete_eq_ok]
    simp

end SettingsLoader

end PackagePlan
