/-
  A command that works without settings of the user, and the same command with a file of them. One
  file more in the tree does not change what is read in front of it (`settings_of_adds`), so all
  that is above the user stays as it was. What the file says is only read where nothing above it
  does, and there the command stops at a tools version or a platform that passes the checks of the
  file but cannot be read (`load_with_user_file`, `load_stops_at_half_platform`).
-/
import Mathlib.Data.List.Find
import PackagePlan.Proofs.Cli.Session

namespace PackagePlan

/-! ## Files that are read in a grown tree -/

section
variable {tree full : Tree} {place : Place}

theorem settingsTable_of_grows {file : Path} {table : Toml.Table} (h : tree.Grows full place)
    (hhome : tree.IsHome) (htable : settingsTable tree file = .ok table) :
    settingsTable full file = .ok table := by
  obtain ⟨text, htext, hparse⟩ := settingsTable_eq_ok.1 htable
  exact settingsTable_eq_ok.2 ⟨text, Tree.read_of_grows h hhome htext, hparse⟩

theorem ProjectSettings.load_of_grows {file : Path} {project : ProjectSettings}
    (h : tree.Grows full place) (hhome : tree.IsHome)
    (hload : ProjectSettings.load tree file = .ok project) :
    ProjectSettings.load full file = .ok project := by
  obtain ⟨table, htable, hrest⟩ := Outcome.bind_eq_ok.1 hload
  exact Outcome.bind_eq_ok.2 ⟨table, settingsTable_of_grows h hhome htable, hrest⟩

namespace SettingsLoader

theorem projectRoot?_of_grows {start : Path} (h : tree.Grows full place) (hhome : tree.IsHome)
    (hapart : ∀ dir ∈ start.ancestors, tree.place? (dir.join projectFile) ≠ some place) :
    projectRoot? full start = projectRoot? tree start :=
  List.find?_congr fun dir hdir => Tree.exists?_of_grows h hhome (hapart dir hdir)

theorem project_of_grows {start : Path} {found : Option Path × ProjectSettings}
    (h : tree.Grows full place) (hhome : tree.IsHome)
    (hapart : ∀ dir ∈ start.ancestors, tree.place? (dir.join projectFile) ≠ some place)
    (hproject : SettingsLoader.project tree start = .ok found) :
    SettingsLoader.project full start = .ok found := by
  unfold SettingsLoader.project at hproject ⊢
  rw [projectRoot?_of_grows h hhome hapart]
  cases hroot : projectRoot? tree start with
  | none =>
    rw [hroot] at hproject
    exact hproject
  | some root =>
    rw [hroot] at hproject
    obtain ⟨project, hload, hfound⟩ := Outcome.map_eq_ok.1 hproject
    exact Outcome.map_eq_ok.2 ⟨project, ProjectSettings.load_of_grows h hhome hload, hfound⟩

end SettingsLoader

theorem PackageDescription.load_of_grows {file : Path} {description : PackageDescription}
    (h : tree.Grows full place) (hhome : tree.IsHome)
    (hload : PackageDescription.load tree file = .ok description) :
    PackageDescription.load full file = .ok description := by
  unfold PackageDescription.load at hload ⊢
  cases hread : tree.read file with
  | error fault =>
    rw [hread] at hload
    cases hload
  | ok text =>
    rw [hread] at hload
    rw [Tree.read_of_grows h hhome hread]
    exact hload

theorem Cli.DescriptionSource.load_of_grows {source : DescriptionSource}
    {description : PackageDescription} (h : tree.Grows full place) (hhome : tree.IsHome)
    (hload : source.load tree = .ok description) : source.load full = .ok description := by
  cases source with
  | builtIn => exact hload
  | file path =>
    have hpath := Outcome.mapError_eq_ok.1 hload
    exact Outcome.mapError_eq_ok.2 (PackageDescription.load_of_grows h hhome hpath)

end

/-- The same surroundings with another tree. -/
def Cli.Surroundings.inTree (around : Surroundings) (tree : Tree) : Surroundings :=
  { around with tree }

/-! ## What a platform section says -/

/-- A section says nothing of the platform, or names one in full. -/
inductive PlatformSection.Names : PlatformSection → Option Platform → Prop
  | nothing : Names ⟨none, none⟩ none
  | platform {os version : String} {platform : Platform}
      (h : Platform.parse (PlatformSetting.render ⟨os, version⟩) = .ok platform) :
      Names ⟨some os, some version⟩ (some platform)

namespace Cli.Session

variable {around : Surroundings} {overrides : Overrides} {found : Settings}

/-- Without the option the section in effect says which platform it is. -/
theorem readPlatform_eq_ok {platform : Option Platform} (h : overrides.platform = none) :
    readPlatform overrides found = .ok platform ↔
      found.platformSection.elim (platform = none) (·.Names platform) := by
  unfold readPlatform platformText Settings.platform
  rw [h]
  cases found.platformSection with
  | none => exact ⟨fun h => (Except.ok.inj h).symm, fun h => h ▸ rfl⟩
  | some below =>
    obtain ⟨os, version⟩ := below
    cases os with
    | none =>
      cases version with
      | none =>
        constructor
        · intro hread
          cases hread
          exact .nothing
        · intro hnames
          cases hnames
          rfl
      | some version => exact ⟨nofun, nofun⟩
    | some os =>
      cases version with
      | none => exact ⟨nofun, nofun⟩
      | some version =>
        constructor
        · intro hread
          obtain ⟨named, hnamed, rfl⟩ := Outcome.map_eq_ok.1 hread
          exact .platform (Outcome.mapError_eq_ok.1 hnamed)
        · intro hnames
          cases hnames with
          | @platform _ _ named hnamed =>
            exact Outcome.map_eq_ok.2 ⟨named, Outcome.mapError_eq_ok.2 hnamed, rfl⟩

/-! ## Settings of the user below all others -/

/-- Whether the options, the variables or the project give a tools version. -/
def givesToolsVersion (around : Surroundings) (overrides : Overrides)
    (project : ProjectSettings) : Bool :=
  overrides.toolsVersion.isSome || around.environment.toolsVersion.isSome ||
    project.toolsVersion.isSome

/-- Whether they give a platform, or a part of one. -/
def givesPlatform (around : Surroundings) (overrides : Overrides)
    (project : ProjectSettings) : Bool :=
  overrides.platform.isSome || around.environment.platformOs.isSome ||
    around.environment.platformVersion.isSome || project.platform.isSome

/-- Whether they say if targets are resolved side by side. -/
def givesParallel (around : Surroundings) (overrides : Overrides)
    (project : ProjectSettings) : Bool :=
  overrides.sequential || around.environment.parallel.isSome || project.parallel.isSome

section
variable {project laid : ProjectSettings} {root : Option Path} {user : UserSettings}

theorem givesToolsVersion_eq (h : around.environment.LaidOver project laid) :
    givesToolsVersion around overrides project =
      (overrides.toolsVersion.isSome || laid.toolsVersion.isSome) := by
  unfold givesToolsVersion
  simp [h.toolsVersion, Bool.or_assoc]

theorem givesPlatform_eq (h : around.environment.LaidOver project laid) :
    givesPlatform around overrides project =
      (overrides.platform.isSome || laid.platform.isSome) := by
  unfold givesPlatform
  rw [h.platform]
  unfold Environment.platformOver
  cases around.environment.platformOs <;> cases around.environment.platformVersion <;> simp

theorem givesParallel_eq (h : around.environment.LaidOver project laid) :
    givesParallel around overrides project =
      (overrides.sequential || laid.parallel.isSome) := by
  obtain ⟨stated, hstated, hparallel⟩ := h.parallel
  have hsome : stated.isSome = around.environment.parallel.isSome := by
    cases hvariable : around.environment.parallel with
    | none =>
      rw [hvariable] at hstated
      cases hstated
      rfl
    | some text =>
      rw [hvariable] at hstated
      obtain ⟨value, -, rfl⟩ := Option.map_eq_some_iff.1 hstated
      rfl
  unfold givesParallel
  rw [hparallel, ← hsome]
  simp [Bool.or_assoc]

/-- What is given above the user is read as without the user, and what is not is read from the
    settings of the user. -/
theorem readToolsVersion_over (h : around.environment.LaidOver project laid) :
    readToolsVersion overrides ⟨laid, user, root⟩ =
      if givesToolsVersion around overrides project then
        readToolsVersion overrides ⟨laid, {}, root⟩
      else readToolsVersion {} ⟨{}, user, root⟩ := by
  rw [givesToolsVersion_eq h]
  unfold readToolsVersion Settings.toolsVersion
  dsimp only
  cases overrides.toolsVersion <;> cases laid.toolsVersion <;> rfl

theorem readPlatform_over (h : around.environment.LaidOver project laid) :
    readPlatform overrides ⟨laid, user, root⟩ =
      if givesPlatform around overrides project then readPlatform overrides ⟨laid, {}, root⟩
      else readPlatform {} ⟨{}, user, root⟩ := by
  rw [givesPlatform_eq h]
  unfold readPlatform platformText Settings.platform Settings.platformSection
  dsimp only
  cases overrides.platform <;> cases laid.platform <;> rfl

theorem parallel_over (h : around.environment.LaidOver project laid) :
    (Settings.parallel ⟨laid, user, root⟩ && !overrides.sequential) =
      if givesParallel around overrides project then
        Settings.parallel ⟨laid, {}, root⟩ && !overrides.sequential
      else Settings.parallel ⟨{}, user, root⟩ := by
  rw [givesParallel_eq h]
  unfold Settings.parallel
  dsimp only
  cases overrides.sequential with
  | true => simp
  | false =>
    cases laid.parallel with
    | none => exact Bool.and_true _
    | some value => rfl

theorem exists_readToolsVersion_iff :
    (∃ version, readToolsVersion {} ⟨{}, user, root⟩ = .ok version) ↔
      ∀ text, user.toolsVersion = some text → ∃ version, Version.parse? text = some version := by
  simp only [readToolsVersion_eq_ok]
  have hfirst : firstOf [({} : Overrides).toolsVersion,
      Settings.toolsVersion ⟨{}, user, root⟩] = user.toolsVersion := by
    cases huser : user.toolsVersion <;> simp [Settings.toolsVersion, huser] <;> rfl
  rw [hfirst]
  cases user.toolsVersion <;> simp

theorem exists_readPlatform_iff :
    (∃ platform, readPlatform {} ⟨{}, user, root⟩ = .ok platform) ↔
      ∀ below, user.platform = some below → ∃ platform, below.Names platform := by
  have hsection : Settings.platformSection ⟨{}, user, root⟩ = user.platform := by
    cases huser : user.platform <;> simp [Settings.platformSection, huser]
  simp only [readPlatform_eq_ok (rfl : ({} : Overrides).platform = none), hsection]
  cases user.platform <;> simp

/-- What a command falls back on in the settings of the user can be read. -/
structure CanFallBack (around : Surroundings) (overrides : Overrides) (project : ProjectSettings)
    (user : UserSettings) : Prop where
  toolsVersion : givesToolsVersion around overrides project = false →
    ∀ text, user.toolsVersion = some text → ∃ version, Version.parse? text = some version
  platform : givesPlatform around overrides project = false →
    ∀ below, user.platform = some below → ∃ platform, below.Names platform

theorem canFallBack_iff {toolsVersion : Option Version} {platform : Option Platform}
    (hover : around.environment.LaidOver project laid)
    (htools : readToolsVersion overrides ⟨laid, {}, root⟩ = .ok toolsVersion)
    (hplatform : readPlatform overrides ⟨laid, {}, root⟩ = .ok platform) :
    CanFallBack around overrides project user ↔
      (∃ version, readToolsVersion overrides ⟨laid, user, root⟩ = .ok version) ∧
        ∃ platform, readPlatform overrides ⟨laid, user, root⟩ = .ok platform := by
  have hsplit : CanFallBack around overrides project user ↔
      (givesToolsVersion around overrides project = false →
        ∃ version, readToolsVersion {} ⟨{}, user, root⟩ = .ok version) ∧
      (givesPlatform around overrides project = false →
        ∃ platform, readPlatform {} ⟨{}, user, root⟩ = .ok platform) := by
    rw [exists_readToolsVersion_iff, exists_readPlatform_iff]
    exact ⟨fun h => ⟨h.toolsVersion, h.platform⟩, fun h => ⟨h.1, h.2⟩⟩
  rw [hsplit, readToolsVersion_over hover, readPlatform_over hover, htools, hplatform]
  cases givesToolsVersion around overrides project <;>
    cases givesPlatform around overrides project <;> simp

end

/-- A session has all that is given above the user from the session before. -/
structure Keeps (around : Surroundings) (overrides : Overrides) (project : ProjectSettings)
    (before after : Session) : Prop where
  root : after.root = before.root
  description : after.description = before.description
  source : after.source = before.source
  outputDir : after.outputDir = before.outputDir
  toolsVersion : givesToolsVersion around overrides project = true →
    after.toolsVersion = before.toolsVersion
  platform : givesPlatform around overrides project = true → after.platform = before.platform
  parallel : givesParallel around overrides project = true → after.parallel = before.parallel

/-! ## The command in the grown tree -/

/-- No file of a project that a session looks for lies where another file is to be. -/
def IsApart (around : Surroundings) (overrides : Overrides) (root file : Path) : Prop :=
  ∀ path ∈ root.join conventionalFile ::
      (start around overrides).ancestors.map (·.join projectFile),
    around.tree.place? path ≠ around.tree.place? file

instance (around : Surroundings) (overrides : Overrides) (root file : Path) :
    Decidable (IsApart around overrides root file) :=
  inferInstanceAs (Decidable (∀ path ∈ _, _ ≠ _))

/-- A tree holds one file more than the one around a command, apart from what a session with a
    root looks for. -/
structure Adds (around : Surroundings) (overrides : Overrides) (root file : Path) (full : Tree)
    (place : Place) : Prop where
  home : around.tree.IsHome
  grows : around.tree.Grows full place
  place : around.tree.place? file = some place
  apart : IsApart around overrides root file

section
variable {session after : Session} {root file : Path} {full : Tree} {place : Place}
  {project laid : ProjectSettings} {user other : UserSettings} {top : Option Path}

theorem settings_of_adds (h : Adds around overrides root file full place)
    (huser : userSettings (around.inTree full) = user)
    (hfound : settings around overrides = .ok ⟨laid, other, top⟩) :
    settings (around.inTree full) overrides = .ok ⟨laid, user, top⟩ := by
  obtain ⟨_, project, _, hproject, hlaid, hsame⟩ := settings_eq_ok.1 hfound
  cases hsame
  refine settings_eq_ok.2 ⟨top, project, laid, ?_, hlaid, huser ▸ rfl⟩
  refine SettingsLoader.project_of_grows h.grows h.home (fun dir hdir => ?_) hproject
  rw [← h.place]
  exact h.apart _ (List.mem_cons_of_mem _ (List.mem_map_of_mem hdir))

theorem descriptionSource_of_adds (h : Adds around overrides root file full place) :
    descriptionSource full overrides ⟨laid, user, top⟩ root =
      descriptionSource around.tree overrides ⟨laid, other, top⟩ root := by
  have hexists : full.exists? (root.join conventionalFile) =
      around.tree.exists? (root.join conventionalFile) :=
    Tree.exists?_of_grows h.grows h.home (h.place ▸ h.apart _ List.mem_cons_self)
  have hconventional : conventional? full root = conventional? around.tree root := by
    unfold conventional?
    dsimp only
    rw [hexists]
  unfold descriptionSource
  rw [hconventional]
  rfl

/-- The command in the grown tree reads the tools version and the platform anew; all that comes
    before them is as it was. -/
theorem load_inTree_eq_ok (h : Adds around overrides session.root file full place)
    (huser : userSettings (around.inTree full) = user)
    (hfound : settings around overrides = .ok ⟨laid, other, top⟩)
    (hload : load around overrides = .ok session) :
    load (around.inTree full) overrides = .ok after ↔
      ∃ toolsVersion platform,
        readToolsVersion overrides ⟨laid, user, top⟩ = .ok toolsVersion ∧
        readPlatform overrides ⟨laid, user, top⟩ = .ok platform ∧
        after = { session with
          toolsVersion, platform
          parallel := Settings.parallel ⟨laid, user, top⟩ && !overrides.sequential } := by
  have hbelow := settings_of_adds h huser hfound
  obtain ⟨_, description, _, _, hfound', hdescription, -, -, rfl⟩ := load_eq_ok.1 hload
  cases hfound.symm.trans hfound'
  -- The description comes from the same place as before and reads the same there.
  have hsource : descriptionSource (around.inTree full).tree overrides ⟨laid, user, top⟩
      (packageRoot (around.inTree full) overrides ⟨laid, user, top⟩) =
        descriptionSource around.tree overrides ⟨laid, other, top⟩
          (packageRoot around overrides ⟨laid, other, top⟩) :=
    descriptionSource_of_adds h
  have hdescription' := DescriptionSource.load_of_grows h.grows h.home hdescription
  rw [← hsource] at hdescription'
  constructor
  · intro hafter
    obtain ⟨_, _, toolsVersion, platform, hsettings, hsame, htools, hplatform, rfl⟩ :=
      load_eq_ok.1 hafter
    cases hbelow.symm.trans hsettings
    cases hdescription'.symm.trans hsame
    refine ⟨toolsVersion, platform, htools, hplatform, ?_⟩
    rw [hsource]
    rfl
  · rintro ⟨toolsVersion, platform, htools, hplatform, rfl⟩
    refine load_eq_ok.2
      ⟨_, description, toolsVersion, platform, hbelow, hdescription', htools, hplatform, ?_⟩
    rw [hsource]
    rfl

theorem exists_load_inTree_iff (h : Adds around overrides session.root file full place)
    (huser : userSettings (around.inTree full) = user)
    (hover : around.environment.LaidOver project laid)
    (hfound : settings around overrides = .ok ⟨laid, {}, top⟩)
    (hload : load around overrides = .ok session) :
    (∃ after, load (around.inTree full) overrides = .ok after) ↔
      CanFallBack around overrides project user := by
  obtain ⟨_, _, _, _, hfound', -, htools, hplatform, -⟩ := load_eq_ok.1 hload
  cases hfound.symm.trans hfound'
  simp only [load_inTree_eq_ok h huser hfound hload, canFallBack_iff hover htools hplatform]
  constructor
  · rintro ⟨_, toolsVersion, platform, htools, hplatform, -⟩
    exact ⟨⟨toolsVersion, htools⟩, platform, hplatform⟩
  · rintro ⟨⟨toolsVersion, htools⟩, platform, hplatform⟩
    exact ⟨_, toolsVersion, platform, htools, hplatform, rfl⟩

theorem keeps_of_load_inTree (h : Adds around overrides session.root file full place)
    (huser : userSettings (around.inTree full) = user)
    (hover : around.environment.LaidOver project laid)
    (hfound : settings around overrides = .ok ⟨laid, {}, top⟩)
    (hload : load around overrides = .ok session)
    (hafter : load (around.inTree full) overrides = .ok after) :
    Keeps around overrides project session after := by
  obtain ⟨_, _, htools', hplatform', rfl⟩ := (load_inTree_eq_ok h huser hfound hload).1 hafter
  obtain ⟨_, _, _, _, hfound', -, htools, hplatform, rfl⟩ := load_eq_ok.1 hload
  cases hfound.symm.trans hfound'
  refine ⟨rfl, rfl, rfl, rfl, fun hgives => ?_, fun hgives => ?_, fun hgives => ?_⟩
  · rw [readToolsVersion_over hover, if_pos hgives, htools] at htools'
    exact (Except.ok.inj htools').symm
  · rw [readPlatform_over hover, if_pos hgives, hplatform] at hplatform'
    exact (Except.ok.inj hplatform').symm
  · exact (parallel_over hover).trans (if_pos hgives)

/-- Where the file gives no settings of the user the session is the one before. -/
theorem load_inTree_eq (h : Adds around overrides session.root file full place)
    (huser : userSettings (around.inTree full) = {})
    (hfound : settings around overrides = .ok ⟨laid, {}, top⟩)
    (hload : load around overrides = .ok session) :
    load (around.inTree full) overrides = .ok session := by
  obtain ⟨_, _, toolsVersion, platform, hfound', -, htools, hplatform, hsession⟩ :=
    load_eq_ok.1 hload
  cases hfound.symm.trans hfound'
  refine (load_inTree_eq_ok h huser hfound hload).2
    ⟨toolsVersion, platform, htools, hplatform, ?_⟩
  rw [hsession]

end

end Cli.Session

/-! ## A guest in the workshop -/

namespace Cli.Workshop

/-- The command of a guest, who has a home and no file in it. -/
def guest : Surroundings := around.atHome (some ⟨"/guest"⟩)

/-- The tree once the guest has a file. -/
def settle (content : String) : Except FileFault Tree :=
  guest.tree.write (userFileBelow ⟨"/guest"⟩) content

/-- A file with a platform that can be read. -/
def linuxText : String := "[platform]\nos = \"linux\"\nversion = \"6.1\"\n"

def linuxUser : UserSettings := { platform := some ⟨some "linux", some "6.1"⟩ }

/-- A file with a platform that lacks its version. -/
def halfText : String := "[platform]\nos = \"macos\"\n"

theorem project_guest : SettingsLoader.project guest.tree (Session.start guest {}) =
    .ok (some ⟨"/work"⟩, project) := by
  decide +kernel

theorem exists_session : ∃ session, Session.load guest {} = .ok session := by
  have hok : (Session.load guest {}).isOk = true := by decide +kernel
  exact Outcome.isOk_iff.1 hok

end Cli.Workshop

namespace Cli.Session

variable {around : Surroundings} {overrides : Overrides}

/-! ## The main statement -/

/-- A file of the user is laid beside a command that works without it. The command goes on working
    exactly if what it falls back on in the file can be read. When it does it keeps all that is
    given above the user, and a file that cannot be loaded changes nothing. -/
theorem load_with_user_file {home : Path} {content : String} {full : Tree} {root : Option Path}
    {project : ProjectSettings} {user : UserSettings} {session : Session}
    (hhome : around.environment.home = some home) (hdirectory : around.tree.IsHome)
    (habsent : around.tree.exists? (userFileBelow home) = false)
    (hwrite : around.tree.write (userFileBelow home) content = .ok full)
    (hproject : SettingsLoader.project around.tree (start around overrides) = .ok (root, project))
    (hload : load around overrides = .ok session)
    (hapart : IsApart around overrides session.root (userFileBelow home))
    (huser : UserLayer full (some (userFileBelow home)) user) :
    ((∃ after, load (around.inTree full) overrides = .ok after) ↔
      CanFallBack around overrides project user) ∧
    (∀ after, load (around.inTree full) overrides = .ok after →
      Keeps around overrides project session after) ∧
    (∀ error, UserSettings.load full (userFileBelow home) = .error error →
      load (around.inTree full) overrides = .ok session) := by
  obtain ⟨place, hplace, hgrows⟩ := Tree.grows_of_write hdirectory habsent hwrite
  have hadds : Adds around overrides session.root (userFileBelow home) full place :=
    ⟨hdirectory, hgrows, hplace, hapart⟩
  -- Before the file is there no settings of the user count, and afterwards those in it do.
  have hnone : userSettings around = {} := userSettings_eq_empty_of_missing fun other hother => by
    cases hhome.symm.trans hother
    exact habsent
  have hlayer {found : UserSettings} (h : UserLayer full (some (userFileBelow home)) found) :
      userSettings (around.inTree full) = found := by
    refine (userLayer_iff.1 ?_).symm
    rw [show (around.inTree full).environment.home = some home from hhome]
    exact h
  obtain ⟨_, _, _, _, hfound, -⟩ := load_eq_ok.1 hload
  obtain ⟨_, _, laid, hproject', hlaid, rfl⟩ := settings_eq_ok.1 hfound
  cases hproject.symm.trans hproject'
  rw [hnone] at hfound
  have hover := Environment.laidOver_of_override hlaid
  refine ⟨?_, fun after hafter => ?_, fun error hbroken => ?_⟩
  · exact exists_load_inTree_iff hadds (hlayer huser) hover hfound hload
  · exact keeps_of_load_inTree hadds (hlayer huser) hover hfound hload hafter
  · exact load_inTree_eq hadds (hlayer (.broken hbroken)) hfound hload

/-- A guest who names a platform in full gets a session with it, and the tools version of the
    variable stays. -/
theorem load_with_linux_file :
    ∃ full session after, Workshop.settle Workshop.linuxText = .ok full ∧
      load Workshop.guest {} = .ok session ∧
      load (Workshop.guest.inTree full) {} = .ok after ∧
      after.toolsVersion = session.toolsVersion := by
  obtain ⟨session, hload⟩ := Workshop.exists_session
  have hok : (Workshop.settle Workshop.linuxText).isOk = true := by decide +kernel
  obtain ⟨full, hwrite⟩ := Outcome.isOk_iff.1 hok
  have hheld : ((Workshop.settle Workshop.linuxText).toOption.map fun tree =>
      UserSettings.load tree (userFileBelow ⟨"/guest"⟩)) = some (.ok Workshop.linuxUser) := by
    decide +kernel
  rw [hwrite] at hheld
  have hroot : session.root = ⟨"/work"⟩ := (isLayered_of_load Workshop.project_guest hload).root
  have hapart : IsApart Workshop.guest {} session.root (userFileBelow ⟨"/guest"⟩) := by
    rw [hroot]
    decide +kernel
  have hmain := load_with_user_file rfl (by decide +kernel) (by decide +kernel) hwrite
    Workshop.project_guest hload hapart (.held (Option.some.inj hheld))
  have hcan : CanFallBack Workshop.guest {} Workshop.project Workshop.linuxUser := by
    refine ⟨fun hgives => (nomatch hgives), fun _ below hbelow => ?_⟩
    cases hbelow
    exact ⟨some ⟨.linux, ⟨6, 1, 0⟩⟩, .platform (by decide +kernel)⟩
  obtain ⟨after, hafter⟩ := hmain.1.2 hcan
  exact ⟨full, session, after, hwrite, hload, hafter, (hmain.2.1 after hafter).toolsVersion rfl⟩

/-- A file with half a platform passes its checks, and the command that works without it stops. -/
theorem load_stops_at_half_platform :
    (∃ session, load Workshop.guest {} = .ok session) ∧
    ∃ full user, Workshop.settle Workshop.halfText = .ok full ∧
      UserSettings.load full (userFileBelow ⟨"/guest"⟩) = .ok user ∧
      ∀ session, load (Workshop.guest.inTree full) {} ≠ .ok session := by
  have hok : (Workshop.settle Workshop.halfText).isOk = true := by decide +kernel
  obtain ⟨full, hwrite⟩ := Outcome.isOk_iff.1 hok
  have hruns : ((Workshop.settle Workshop.halfText).toOption.map fun tree =>
      (UserSettings.load tree (userFileBelow ⟨"/guest"⟩),
        (load (Workshop.guest.inTree tree) {}).isOk)) =
      some (.ok { platform := some ⟨some "macos", none⟩ }, false) := by
    decide +kernel
  rw [hwrite] at hruns
  obtain ⟨huser, hfails⟩ := Prod.mk.inj (Option.some.inj hruns)
  refine ⟨Workshop.exists_session, full, _, hwrite, huser, fun session hload => ?_⟩
  rw [hload] at hfails
  cases hfails

end Cli.Session

end PackagePlan
