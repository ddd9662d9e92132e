/-
  The project that a directory belongs to. The walk upwards looks for a settings file in the
  directory itself and in each path above it. The first one that is met counts, whatever is in it
  (`IsNearest`). If none is met up to the root or the empty path there is no project (`IsBare`), and
  the settings are those that the variables make on their own (`Environment.alone`).
  Main statement: `loadFrom_nearest`.
-/
import PackagePlan.Proofs.Path.Ancestors
import PackagePlan.Proofs.Settings.Versions

namespace PackagePlan

/-! ## Variables on their own -/

namespace Environment

/-- The settings that variables make without a project: each is the one setting that it is for, and
a section that no variable is for is not there. -/
def alone (environment : Environment) : ProjectSettings where
  toolchain := environment.toolsVersion.map fun text => { toolsVersion := some text }
  platform :=
    match environment.platformOs, environment.platformVersion with
    | none, none => none
    | os, version => some { os, version }
  build := (environment.parallel.bind truth?).map fun value => { parallel := some value }

variable {environment : Environment} {project laid : ProjectSettings}

theorem setToolsVersion_empty {stated : Option String} (h : setToolsVersion {} stated = .ok laid) :
    laid = { toolchain := stated.map fun text => { toolsVersion := some text } } := by
  cases stated with
  | none => exact (Except.ok.inj h).symm
  | some text =>
    obtain ⟨_, -, h⟩ := Outcome.bind_eq_ok.1 h
    exact (Except.ok.inj h).symm

/-- A variable for the work side by side opens the section about the build. -/
theorem setParallel_unbuilt {stated : Option String} (hnone : project.build = none)
    (h : setParallel project stated = .ok laid) :
    laid = { project with
      build := (stated.bind truth?).map fun value => { parallel := some value } } := by
  cases stated with
  | none =>
    obtain rfl := Except.ok.inj h
    rw [Option.bind_none, Option.map_none, ← hnone]
  | some text =>
    unfold setParallel at h
    dsimp only at h
    split at h
    · next value hvalue =>
      rw [hnone] at h
      rw [Option.bind_some, hvalue]
      exact (Except.ok.inj h).symm
    · cases h

/-- What the variables make one after the other. -/
theorem eq_alone {first last : ProjectSettings}
    (hfirst : setToolsVersion {} environment.toolsVersion = .ok first)
    (hlast : setParallel (setPlatformVersion (setPlatformOs first environment.platformOs)
      environment.platformVersion) environment.parallel = .ok last) :
    last = environment.alone := by
  obtain rfl := setToolsVersion_empty hfirst
  rw [setParallel_unbuilt (by rw [build_set]) hlast]
  unfold alone
  cases environment.platformOs <;> cases environment.platformVersion <;> rfl

theorem eq_alone_of_override (h : environment.override {} = .ok laid) :
    laid = environment.alone := by
  obtain ⟨first, hfirst, h⟩ := Outcome.bind_eq_ok.1 h
  obtain ⟨last, hlast, h⟩ := Outcome.bind_eq_ok.1 h
  obtain ⟨-, h⟩ := Outcome.check_bind_eq_ok.1 h
  obtain rfl := Except.ok.inj h
  exact eq_alone hfirst hlast

/-- The variables that are set have values that settings take. -/
structure IsSound (environment : Environment) : Prop where
  toolsVersion : ∀ text, environment.toolsVersion = some text → isVersionText text = true
  platformOs : ∀ text, environment.platformOs = some text → Text.trimmed text.toList ≠ []
  platformVersion : ∀ text, environment.platformVersion = some text → isVersionText text = true
  parallel : ∀ text, environment.parallel = some text → ∃ value, truth? text = some value

theorem toolsVersion_alone : environment.alone.toolsVersion = environment.toolsVersion := by
  unfold alone ProjectSettings.toolsVersion
  cases environment.toolsVersion <;> rfl

theorem platform_alone :
    (environment.alone.platform = none ∧ environment.platformOs = none ∧
      environment.platformVersion = none) ∨
    environment.alone.platform =
      some ⟨environment.platformOs, environment.platformVersion⟩ := by
  unfold alone
  cases environment.platformOs <;> cases environment.platformVersion <;> simp

/-- The settings of the variables pass the checks if the texts of the variables do. -/
theorem areChecked_alone_iff :
    AreChecked environment.alone.toolsVersion environment.alone.platform ↔
      (∀ text, environment.toolsVersion = some text → isVersionText text = true) ∧
      (∀ text, environment.platformOs = some text → Text.trimmed text.toList ≠ []) ∧
      ∀ text, environment.platformVersion = some text → isVersionText text = true := by
  rw [toolsVersion_alone]
  rcases environment.platform_alone with ⟨hnone, hos, hversion⟩ | hsome
  · rw [hnone, hos, hversion]
    exact ⟨fun h => ⟨h.toolsVersion, nofun, nofun⟩, fun h => ⟨h.1, nofun, nofun⟩⟩
  · rw [hsome]
    constructor
    · intro h
      exact ⟨h.toolsVersion, fun text => h.os _ text rfl, fun text => h.version _ text rfl⟩
    · rintro ⟨htools, hos, hversion⟩
      refine ⟨htools, fun own text hown => ?_, fun own text hown => ?_⟩
      · obtain rfl := Option.some.inj hown
        exact hversion text
      · obtain rfl := Option.some.inj hown
        exact hos text

theorem exists_setToolsVersion_iff {stated : Option String} :
    (∃ laid, setToolsVersion project stated = .ok laid) ↔
      ∀ text, stated = some text → isVersionText text = true := by
  have hcheck : checkToolsVersion "GSTACK_TOOLS_VERSION" stated = .ok () ↔
      ∀ text, stated = some text → isVersionText text = true := checkToolsVersion_eq_ok
  rw [← hcheck]
  cases stated with
  | none => exact ⟨fun _ => rfl, fun _ => ⟨project, rfl⟩⟩
  | some text =>
    constructor
    · rintro ⟨laid, h⟩
      exact (Outcome.check_bind_eq_ok.1 h).1
    · intro h
      exact ⟨_, Outcome.check_bind_eq_ok.2 ⟨h, rfl⟩⟩

theorem exists_setParallel_iff {stated : Option String} :
    (∃ laid, setParallel project stated = .ok laid) ↔
      ∀ text, stated = some text → ∃ value, truth? text = some value := by
  cases stated with
  | none => exact ⟨nofun, fun _ => ⟨project, rfl⟩⟩
  | some text =>
    unfold setParallel
    dsimp only
    cases htruth : truth? text with
    | none =>
      refine ⟨nofun, fun h => ?_⟩
      obtain ⟨value, hvalue⟩ := h text rfl
      rw [htruth] at hvalue
      cases hvalue
    | some value =>
      refine ⟨fun _ other hother => ?_, fun _ => ⟨_, rfl⟩⟩
      obtain rfl := Option.some.inj hother
      exact ⟨value, htruth⟩

/-- Without a project the variables are taken exactly if each of them has a value for settings. -/
theorem override_empty_eq_ok_iff :
    environment.override {} = .ok environment.alone ↔ environment.IsSound := by
  constructor
  · intro h
    obtain ⟨htools, hos, hversion⟩ := areChecked_alone_iff.1 (areChecked_of_override h)
    obtain ⟨first, -, h⟩ := Outcome.bind_eq_ok.1 h
    obtain ⟨last, hlast, -⟩ := Outcome.bind_eq_ok.1 h
    exact ⟨htools, hos, hversion, exists_setParallel_iff.1 ⟨last, hlast⟩⟩
  · intro h
    obtain ⟨first, hfirst⟩ := exists_setToolsVersion_iff.2 h.toolsVersion
    obtain ⟨last, hlast⟩ := exists_setParallel_iff.2 h.parallel
    obtain rfl := eq_alone hfirst hlast
    have hcheck : environment.alone.check = .ok () := ProjectSettings.check_eq_ok_iff.2
      (areChecked_alone_iff.2 ⟨h.toolsVersion, h.platformOs, h.platformVersion⟩)
    exact Outcome.bind_eq_ok.2 ⟨first, hfirst,
      Outcome.bind_eq_ok.2 ⟨_, hlast, Outcome.check_bind_eq_ok.2 ⟨hcheck, rfl⟩⟩⟩

/-- Otherwise the settings without a project are refused. -/
theorem exists_override_empty_error (h : ¬environment.IsSound) :
    ∃ error, environment.override {} = .error error := by
  cases hlaid : environment.override {} with
  | error error => exact ⟨error, rfl⟩
  | ok laid =>
    refine absurd (override_empty_eq_ok_iff.1 ?_) h
    rw [hlaid, eq_alone_of_override hlaid]

end Environment

/-! ## The nearest project -/

namespace SettingsLoader

variable {loader : SettingsLoader} {tree : Tree} {environment : Environment} {start dir : Path}

/-- The nearest directory from the start upwards with a settings file of a project. -/
def IsNearest (tree : Tree) (start dir : Path) : Prop :=
  ∃ nearer farther, start.Ascends (nearer ++ dir :: farther) ∧
    (∀ other ∈ nearer, tree.exists? (other.join projectFile) = false) ∧
    tree.exists? (dir.join projectFile) = true

/-- No directory from the start upwards has a settings file of a project. -/
def IsBare (tree : Tree) (start : Path) : Prop :=
  ∃ ways, start.Ascends ways ∧ ∀ dir ∈ ways, tree.exists? (dir.join projectFile) = false

theorem projectRoot?_eq_some_iff : projectRoot? tree start = some dir ↔ IsNearest tree start dir := by
  have hwalk := start.ascends_ancestors
  unfold projectRoot? IsNearest
  rw [List.find?_eq_some_iff_append]
  constructor
  · rintro ⟨hfound, nearer, farther, hways, hnearer⟩
    exact ⟨nearer, farther, hways ▸ hwalk, fun other hother => by simpa using hnearer other hother,
      hfound⟩
  · rintro ⟨nearer, farther, hways, hnearer, hfound⟩
    exact ⟨hfound, nearer, farther, hwalk.eq hways, fun other hother => by
      simpa using hnearer other hother⟩

theorem projectRoot?_eq_none_iff : projectRoot? tree start = none ↔ IsBare tree start := by
  have hwalk := start.ascends_ancestors
  unfold projectRoot? IsBare
  rw [List.find?_eq_none]
  constructor
  · intro hnone
    exact ⟨_, hwalk, fun dir hdir => by simpa using hnone dir hdir⟩
  · rintro ⟨ways, hways, hnone⟩
    rw [hwalk.eq hways]
    exact fun dir hdir => by simpa using hnone dir hdir

theorem IsNearest.unique {other : Path} (h : IsNearest tree start dir)
    (h' : IsNearest tree start other) : dir = other := by
  rw [← projectRoot?_eq_some_iff] at h h'
  exact Option.some.inj (h.symm.trans h')

theorem exists_nearest_or_bare : (∃! dir, IsNearest tree start dir) ∨ IsBare tree start := by
  cases hroot : projectRoot? tree start with
  | none => exact .inr (projectRoot?_eq_none_iff.1 hroot)
  | some dir =>
    have hnearest := projectRoot?_eq_some_iff.1 hroot
    exact .inl ⟨dir, hnearest, fun _ hother => hother.unique hnearest⟩

/-! ## What is loaded from a directory -/

theorem complete_eq {root : Option Path} {project : ProjectSettings} :
    loader.complete tree environment root project =
      (environment.override project).map fun laid => ⟨laid, loader.user tree, root⟩ := by
  unfold complete
  cases environment.override project <;> rfl

theorem loadFrom_of_broken (h : IsNearest tree start dir) {error : SettingsError}
    (hload : ProjectSettings.load tree (dir.join projectFile) = .error error) :
    (loader.loadFrom tree environment start).1 = .error error := by
  unfold loadFrom project
  rw [projectRoot?_eq_some_iff.2 h]
  dsimp only
  rw [hload]
  rfl

theorem loadFrom_of_nearest (h : IsNearest tree start dir) {project : ProjectSettings}
    (hload : ProjectSettings.load tree (dir.join projectFile) = .ok project) :
    (loader.loadFrom tree environment start).1 = (environment.override project).map
      fun laid => ⟨laid, (loader.located environment).user tree, some dir⟩ := by
  unfold loadFrom SettingsLoader.project
  rw [projectRoot?_eq_some_iff.2 h]
  dsimp only
  rw [hload]
  exact complete_eq

theorem loadFrom_of_bare (h : IsBare tree start) :
    (loader.loadFrom tree environment start).1 = (environment.override {}).map
      fun laid => ⟨laid, (loader.located environment).user tree, none⟩ := by
  unfold loadFrom project
  rw [projectRoot?_eq_none_iff.2 h]
  exact complete_eq

end SettingsLoader

/-! ## A lodge in a garden

The garden is a project, and so is the lodge in it, but its settings file is broken off. -/

namespace Garden

def tree : Tree where
  root := .directory [
    ("garden", .directory [
      ("gstack.toml", .file "[toolchain]\ntools_version = \"5.9\"\n"),
      ("lodge", .directory [
        ("gstack.toml", .file "[toolchain"),
        ("room", .directory [])]),
      ("pond", .directory [])]),
    ("street", .directory [])]

def project : ProjectSettings := { toolchain := some ⟨some "5.9"⟩ }

def environment : Environment := { toolsVersion := some "5.10", platformOs := some "linux" }

/-- What the variables make of the settings of the garden. -/
def laid : ProjectSettings where
  toolchain := some ⟨some "5.10"⟩
  platform := some ⟨some "linux", none⟩

end Garden

namespace SettingsLoader

/-! ## The main statement -/

/-- The walk upwards ends, either at the nearest directory with a settings file of a project or above
the last one. An error in that file is the answer, whatever lies farther up; otherwise its settings
with the variables laid over them are loaded, and its directory is the root. Without such a
directory there is no root and the settings of the project are those of the variables alone, if
these have values that settings take. -/
theorem loadFrom_nearest (loader : SettingsLoader) (tree : Tree) (environment : Environment)
    (start : Path) :
    ((∃! dir, IsNearest tree start dir) ∨ IsBare tree start) ∧
    (∀ dir, IsNearest tree start dir →
      (∀ error, ProjectSettings.load tree (dir.join projectFile) = .error error →
        (loader.loadFrom tree environment start).1 = .error error) ∧
      ∀ project, ProjectSettings.load tree (dir.join projectFile) = .ok project →
        (loader.loadFrom tree environment start).1 = (environment.override project).map
          fun laid => ⟨laid, (loader.located environment).user tree, some dir⟩) ∧
    (IsBare tree start →
      (environment.IsSound → (loader.loadFrom tree environment start).1 =
        .ok ⟨environment.alone, (loader.located environment).user tree, none⟩) ∧
      (¬environment.IsSound →
        ∃ error, (loader.loadFrom tree environment start).1 = .error error)) := by
  refine ⟨exists_nearest_or_bare, fun dir h => ⟨fun error => loadFrom_of_broken h, fun project =>
    loadFrom_of_nearest h⟩, fun h => ⟨fun hsound => ?_, fun hunsound => ?_⟩⟩
  · rw [loadFrom_of_bare h, Environment.override_empty_eq_ok_iff.2 hsound]
    rfl
  · obtain ⟨error, herror⟩ := Environment.exists_override_empty_error hunsound
    refine ⟨error, ?_⟩
    rw [loadFrom_of_bare h, herror]
    rfl

/-- From the room the broken file of the lodge is met first, and the one of the garden is not read.
From the pond the garden is the project. From the street there is none. -/
theorem loadFrom_garden :
    (({} : SettingsLoader).loadFrom Garden.tree Garden.environment ⟨"garden/lodge/./room"⟩).1 =
      .error (.malformed ⟨"garden/lodge/gstack.toml"⟩ .malformed) ∧
    (({} : SettingsLoader).loadFrom Garden.tree Garden.environment ⟨"garden//pond/"⟩).1 =
      .ok ⟨Garden.laid, {}, some ⟨"garden"⟩⟩ ∧
    (({} : SettingsLoader).loadFrom Garden.tree Garden.environment ⟨"street"⟩).1 =
      .ok ⟨Garden.environment.alone, {}, none⟩ := by
  have hroom : IsNearest Garden.tree ⟨"garden/lodge/./room"⟩ ⟨"garden/lodge"⟩ :=
    projectRoot?_eq_some_iff.1 (by decide +kernel)
  have hpond : IsNearest Garden.tree ⟨"garden//pond/"⟩ ⟨"garden"⟩ :=
    projectRoot?_eq_some_iff.1 (by decide +kernel)
  have hstreet : IsBare Garden.tree ⟨"street"⟩ :=
    projectRoot?_eq_none_iff.1 (by decide +kernel)
  have hsound : Garden.environment.IsSound :=
    Environment.override_empty_eq_ok_iff.1 (by decide +kernel)
  refine ⟨?_, ?_, ?_⟩
  · exact ((loadFrom_nearest {} Garden.tree Garden.environment _).2.1 _ hroom).1 _
      (by decide +kernel)
  · rw [((loadFrom_nearest {} Garden.tree Garden.environment _).2.1 _ hpond).2 Garden.project
      (by decide +kernel)]
    decide +kernel
  · exact ((loadFrom_nearest {} Garden.tree Garden.environment _).2.2 hstreet).1 hsound

end SettingsLoader

end PackagePlan
