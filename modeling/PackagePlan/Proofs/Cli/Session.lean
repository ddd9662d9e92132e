/-
  The settings of a session. Each of them comes from the first layer that gives it: the options of
  the command, the variables, the settings of the project, and those of the user, of which a file
  that is broken gives none. Main statement: `load_layered`.
-/
import PackagePlan.Cli.Session
import PackagePlan.Proofs.Constraints
import PackagePlan.Proofs.Settings.Layers

namespace PackagePlan

theorem SettingsLoader.project_eq_ok_none {tree : Tree} {start : Path} {project : ProjectSettings}
    (h : SettingsLoader.project tree start = .ok (none, project)) : project = {} := by
  unfold SettingsLoader.project at h
  split at h
  · cases h
    rfl
  · obtain ⟨found, -, h⟩ := Outcome.map_eq_ok.1 h
    cases h

/-- The same surroundings, with another home directory of the user or with none. -/
def Cli.Surroundings.atHome (around : Surroundings) (home : Option Path) : Surroundings :=
  { around with environment := { around.environment with home } }

namespace Cli.Session

variable {around : Surroundings} {overrides : Overrides} {found : Settings} {session : Session}

/-! ## A load, stage by stage -/

/-- The settings of the user that count for a command. -/
def userSettings (around : Surroundings) : UserSettings :=
  (({} : SettingsLoader).located around.environment).user around.tree

theorem userLayer_iff {user : UserSettings} :
    UserLayer around.tree (around.environment.home.map userFileBelow) user ↔
      user = userSettings around := by
  show UserLayer around.tree (({} : SettingsLoader).located around.environment).userFile user ↔ _
  exact SettingsLoader.userLayer_iff

theorem settings_eq_ok :
    settings around overrides = .ok found ↔
      ∃ root project laid,
        SettingsLoader.project around.tree (start around overrides) = .ok (root, project) ∧
        around.environment.override project = .ok laid ∧
        found = ⟨laid, userSettings around, root⟩ := by
  unfold settings
  rw [Outcome.mapError_eq_ok, SettingsLoader.loadFrom_eq_ok]
  rfl

theorem readToolsVersion_eq_ok {version : Option Version} :
    readToolsVersion overrides found = .ok version ↔
      (firstOf [overrides.toolsVersion, found.toolsVersion]).mapM Version.parse? =
        some version := by
  unfold readToolsVersion
  have hfirst : (overrides.toolsVersion <|> found.toolsVersion) =
      firstOf [overrides.toolsVersion, found.toolsVersion] := by simp
  rw [hfirst]
  cases firstOf [overrides.toolsVersion, found.toolsVersion] with
  | none => simp
  | some text =>
    simp only [Outcome.map_eq_ok, Outcome.mapError_eq_ok, Version.parse_eq_ok_iff]
    exact Option.map_eq_some_iff.symm

theorem descriptionSource_eq {tree : Tree} {root : Path} :
    descriptionSource tree overrides found root =
      (firstOf [overrides.descriptor, found.descriptorPath,
        conventional? tree root]).elim .builtIn .file := by
  unfold descriptionSource
  have hfirst : (overrides.descriptor <|> found.descriptorPath <|> conventional? tree root) =
      firstOf [overrides.descriptor, found.descriptorPath, conventional? tree root] := by simp
  rw [hfirst]
  cases firstOf [overrides.descriptor, found.descriptorPath, conventional? tree root] <;> rfl

/-- A session that is loaded, stage by stage. -/
theorem load_eq_ok :
    load around overrides = .ok session ↔
      ∃ found description toolsVersion platform,
        settings around overrides = .ok found ∧
        (descriptionSource around.tree overrides found (packageRoot around overrides found)).load
          around.tree = .ok description ∧
        readToolsVersion overrides found = .ok toolsVersion ∧
        readPlatform overrides found = .ok platform ∧
        session = {
          root := packageRoot around overrides found
          description
          source := descriptionSource around.tree overrides found
            (packageRoot around overrides found)
          toolsVersion
          platform
          parallel := found.parallel && !overrides.sequential
          outputDir := found.outputDir } := by
  unfold load
  simp only [Outcome.bind_eq_ok]
  constructor
  · rintro ⟨found, hfound, description, hdescription, toolsVersion, htools, platform, hplatform, h⟩
    exact ⟨found, description, toolsVersion, platform, hfound, hdescription, htools, hplatform,
      (Except.ok.inj h).symm⟩
  · rintro ⟨found, description, toolsVersion, platform, hfound, hdescription, htools, hplatform, rfl⟩
    exact ⟨found, hfound, description, hdescription, toolsVersion, htools, platform, hplatform, rfl⟩

/-! ## The layers of a session -/

/-- A session each of whose settings comes from the first layer that gives it. -/
structure IsLayered (around : Surroundings) (overrides : Overrides) (projectRoot : Option Path)
    (project : ProjectSettings) (user : UserSettings) (session : Session) : Prop where
  toolsVersion :
    (firstOf [overrides.toolsVersion, around.environment.toolsVersion, project.toolsVersion,
      user.toolsVersion]).mapM Version.parse? = some session.toolsVersion
  /-- The variable, if it is set, stands for a truth value, and this goes first. -/
  parallel : ∃ stated, around.environment.parallel.mapM Environment.truth? = some stated ∧
    session.parallel =
      ((firstOf [stated, project.parallel, user.parallel]).getD true && !overrides.sequential)
  root : session.root = (firstOf [overrides.root, projectRoot]).getD around.directory
  source : session.source =
    (firstOf [
      overrides.descriptor,
      projectRoot.bind fun root => project.descriptor.map fun path =>
        if path.isAbsolute then path else root.join path,
      if around.tree.exists? (session.root.join conventionalFile) then
        some (session.root.join conventionalFile)
      else none]).elim .builtIn .file
  description : session.source.load around.tree = .ok session.description

/-- The description that the settings name, as a path from the root of the project. -/
theorem descriptorPath_eq {start : Path} {root : Option Path} {project laid : ProjectSettings}
    {user : UserSettings} (h : SettingsLoader.project around.tree start = .ok (root, project))
    (hlaid : laid.descriptor = project.descriptor) :
    (⟨laid, user, root⟩ : Settings).descriptorPath =
      root.bind fun root => project.descriptor.map fun path =>
        if path.isAbsolute then path else root.join path := by
  unfold Settings.descriptorPath Settings.locate
  rw [hlaid]
  cases root with
  | none =>
    rw [SettingsLoader.project_eq_ok_none h]
    rfl
  | some root => rfl

theorem isLayered_of_load {root : Option Path} {project : ProjectSettings}
    (hproject : SettingsLoader.project around.tree (start around overrides) = .ok (root, project))
    (h : load around overrides = .ok session) :
    IsLayered around overrides root project (userSettings around) session := by
  obtain ⟨found, description, toolsVersion, platform, hfound, hdescription, htools, -, rfl⟩ :=
    load_eq_ok.1 h
  obtain ⟨root', project', laid, hproject', hlaid, rfl⟩ := settings_eq_ok.1 hfound
  obtain ⟨rfl, rfl⟩ : root = root' ∧ project = project' := by
    rw [hproject] at hproject'
    cases hproject'
    exact ⟨rfl, rfl⟩
  have hover := Environment.laidOver_of_override hlaid
  refine ⟨?_, ?_, ?_, ?_, hdescription⟩
  · rw [readToolsVersion_eq_ok] at htools
    simpa [Settings.toolsVersion, hover.toolsVersion, Option.or_assoc] using htools
  · obtain ⟨stated, hstated, hparallel⟩ := hover.parallel
    exact ⟨stated, hstated, by simp [Settings.parallel, hparallel, Option.or_assoc]⟩
  · simp [packageRoot]
  · rw [descriptionSource_eq, descriptorPath_eq hproject hover.descriptor]
    rfl

/-! ## Another home directory -/

/-- The settings in the order in which they are put together. -/
theorem settings_eq :
    settings around overrides =
      (do
        let (root, project) ← SettingsLoader.project around.tree (start around overrides)
        let laid ← around.environment.override project
        return ⟨laid, userSettings around, root⟩ : Except SettingsError Settings).mapError
          fun error => (Failure.ofSettings error).within "Failed to load configuration" := by
  unfold settings SettingsLoader.loadFrom
  cases SettingsLoader.project around.tree (start around overrides) <;> rfl

theorem settings_atHome {home : Option Path}
    (h : userSettings (around.atHome home) = userSettings around) :
    settings (around.atHome home) overrides = settings around overrides := by
  rw [settings_eq, settings_eq, h]
  rfl

/-- Two homes whose files give the same settings of the user lead to the same session. -/
theorem load_atHome {home : Option Path}
    (h : userSettings (around.atHome home) = userSettings around) :
    load (around.atHome home) overrides = load around overrides := by
  unfold load
  rw [settings_atHome h]
  rfl

/-- Without a file of the user there are no settings of the user. -/
theorem userSettings_eq_empty_of_missing
    (h : ∀ home, around.environment.home = some home →
      around.tree.exists? (userFileBelow home) = false) : userSettings around = {} := by
  refine (userLayer_iff.1 ?_).symm
  cases hhome : around.environment.home with
  | none => exact .unknown
  | some home => exact .missing (h home hhome)

end Cli.Session

/-! ## A workshop with every layer -/

namespace Cli.Workshop

/-- The user asks for a tools version and against targets side by side. -/
def userText : String := "[defaults]\ntools_version = \"5.0\"\nparallel = false\n"

/-- The project asks for a tools version of its own and names its description. -/
def projectText : String :=
  "[toolchain]\ntools_version = \"5.5\"\n[build]\ndescriptor = \"parts.toml\"\n"

def user : UserSettings := { defaults := some ⟨some "5.0", some false⟩ }

def project : ProjectSettings where
  toolchain := some ⟨some "5.5"⟩
  build := some { descriptor := some ⟨"parts.toml"⟩ }

/-- The home of a guest without a file, that of the user, one with a broken file, and a project
    with a directory in it. -/
def tree : Tree :=
  { root := .directory [
      ("guest", .directory [(".gstack", .directory [])]),
      ("home", .directory [(".gstack", .directory [("config.toml", .file userText)])]),
      ("ruin", .directory [(".gstack", .directory [("config.toml", .file "[defaults")])]),
      ("work", .directory [
        ("bench", .directory []),
        ("gstack.toml", .file projectText),
        ("parts.toml", .file "name = \"parts\"\n")])] }

/-- A command that is run inside the project, with a variable for the tools version. -/
def around : Surroundings where
  tree
  environment := { toolsVersion := some "5.9", home := some ⟨"/home"⟩ }
  directory := ⟨"/work/bench"⟩

end Cli.Workshop

namespace Cli.Session

variable {around : Surroundings} {overrides : Overrides}

/-! ## The main statement -/

/-- Each setting of a session comes from the first layer that gives it, and a file of the user
    that cannot be loaded is as good as no such file. -/
theorem load_layered :
    (∀ session, load around overrides = .ok session → ∃ root project user,
      SettingsLoader.project around.tree (start around overrides) = .ok (root, project) ∧
      UserLayer around.tree (around.environment.home.map userFileBelow) user ∧
      IsLayered around overrides root project user session) ∧
    ∀ home error elsewhere, around.environment.home = some home →
      UserSettings.load around.tree (userFileBelow home) = .error error →
      (∀ other, elsewhere = some other → around.tree.exists? (userFileBelow other) = false) →
      load around overrides = load (around.atHome elsewhere) overrides := by
  refine ⟨fun session h => ?_, fun home error elsewhere hhome hbroken habsent => ?_⟩
  · obtain ⟨found, _, _, _, hfound, -⟩ := load_eq_ok.1 h
    obtain ⟨root, project, _, hproject, -, -⟩ := settings_eq_ok.1 hfound
    exact ⟨root, project, userSettings around, hproject, userLayer_iff.2 rfl,
      isLayered_of_load hproject h⟩
  · have hnone : userSettings around = {} := by
      refine (userLayer_iff.1 ?_).symm
      rw [hhome]
      exact .broken hbroken
    refine (load_atHome ?_).symm
    rw [hnone]
    exact userSettings_eq_empty_of_missing habsent

/-- Run in the workshop, a session takes the tools version from the variable, the description
    from the project, and from the user that targets are not resolved side by side. With the
    broken file it is the session of a user without a home. -/
theorem load_workshop :
    (∃ session, load Workshop.around {} = .ok session ∧
      session.toolsVersion = some ⟨5, 9, 0⟩ ∧ session.parallel = false ∧
      session.root = ⟨"/work"⟩ ∧ session.source = .file ⟨"/work/parts.toml"⟩) ∧
    load (Workshop.around.atHome (some ⟨"/ruin"⟩)) {} = load (Workshop.around.atHome none) {} := by
  constructor
  · have hok : (load Workshop.around {}).isOk = true := by decide +kernel
    obtain ⟨session, h⟩ := Outcome.isOk_iff.1 hok
    obtain ⟨root, project, user, hproject, huser, hlayered⟩ := load_layered.1 session h
    have hfound : SettingsLoader.project Workshop.tree ⟨"/work/bench"⟩ =
        .ok (some ⟨"/work"⟩, Workshop.project) := by decide +kernel
    obtain ⟨rfl, rfl⟩ : root = some ⟨"/work"⟩ ∧ project = Workshop.project := by
      cases hproject.symm.trans hfound
      exact ⟨rfl, rfl⟩
    obtain rfl : user = Workshop.user := (userLayer_iff.1 huser).trans (by decide +kernel)
    obtain ⟨stated, hstated, hparallel⟩ := hlayered.parallel
    cases hstated
    exact ⟨session, h, (Option.some.inj hlayered.toolsVersion).symm, hparallel, hlayered.root,
      hlayered.source⟩
  · have hbroken : UserSettings.load Workshop.tree (userFileBelow ⟨"/ruin"⟩) =
        .error (.malformed (userFileBelow ⟨"/ruin"⟩) .malformed) := by decide +kernel
    exact load_layered.2 ⟨"/ruin"⟩ _ none rfl hbroken fun _ h => nomatch h

end Cli.Session

end PackagePlan
