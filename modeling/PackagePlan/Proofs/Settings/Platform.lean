/-
  The platform that settings come to. Field by field the variables go before the section of the
  files, and this is the platform in effect unless a single variable hides the section of the user
  (`platform_eq_byField_iff`): where the project has no section the variable opens one, which then
  stands in place of the user's with its other field missing (`platform_of_lone_variable`).
-/
import PackagePlan.Proofs.Settings.Layers

namespace PackagePlan

/-! ## The platform in effect -/

/-- The platform of a family and a version; one without the other is refused. -/
def PlatformSetting.ofFields :
    Option String → Option String → Except SettingsError (Option PlatformSetting)
  | some os, some version => .ok (some ⟨os, version⟩)
  | none, none => .ok none
  | _, _ => .error (.invalidValue "platform" .halfPlatform)

theorem Settings.platform_eq (settings : Settings) :
    settings.platform = PlatformSetting.ofFields
      ((firstOf [settings.project.platform, settings.user.platform]).bind (·.os))
      ((firstOf [settings.project.platform, settings.user.platform]).bind (·.version)) := by
  have hsection : settings.platformSection =
      firstOf [settings.project.platform, settings.user.platform] := by
    unfold platformSection
    simp
  unfold platform
  rw [hsection]
  cases firstOf [settings.project.platform, settings.user.platform] with
  | none => rfl
  | some found =>
    obtain ⟨os, version⟩ := found
    cases os <;> cases version <;> rfl

namespace SettingsLoader

variable {loader : SettingsLoader} {tree : Tree} {environment : Environment}
  {project : ProjectSettings} {user : UserSettings} {settings : Settings}

/-- Settings that are loaded, from a directory or with a given file, and the layers below the
    variables: the settings of the project as they stand in its file, and those of the user. -/
inductive Loads (loader : SettingsLoader) (tree : Tree) (environment : Environment) :
    ProjectSettings → UserSettings → Settings → Prop
  | directory {start : Path} {root : Option Path} {project : ProjectSettings}
      {user : UserSettings} {settings : Settings}
      (hproject : SettingsLoader.project tree start = .ok (root, project))
      (huser : UserLayer tree (loader.located environment).userFile user)
      (h : (loader.loadFrom tree environment start).1 = .ok settings) :
      Loads loader tree environment project user settings
  | file {file : Path} {project : ProjectSettings} {user : UserSettings} {settings : Settings}
      (hproject : ProjectSettings.load tree file = .ok project)
      (huser : UserLayer tree (loader.located environment).userFile user)
      (h : (loader.loadFile tree environment file).1 = .ok settings) :
      Loads loader tree environment project user settings

theorem Loads.layers (h : loader.Loads tree environment project user settings) :
    environment.LaidOver project settings.project ∧ settings.user = user := by
  cases h with
  | directory hproject huser h =>
    obtain ⟨_, _, _, hfound, hlaid, rfl⟩ := loadFrom_eq_ok.1 h
    rw [hproject] at hfound
    cases hfound
    exact ⟨Environment.laidOver_of_override hlaid, (userLayer_iff.1 huser).symm⟩
  | file hproject huser h =>
    obtain ⟨_, _, hfound, hlaid, rfl⟩ := loadFile_eq_ok.1 h
    rw [hproject] at hfound
    cases hfound
    exact ⟨Environment.laidOver_of_override hlaid, (userLayer_iff.1 huser).symm⟩

end SettingsLoader

namespace Environment

/-- The platform field by field: a variable if it is set, and otherwise what the section of the
    project says, or that of the user where the project has none. -/
def byField (environment : Environment) (project : ProjectSettings) (user : UserSettings) :
    Except SettingsError (Option PlatformSetting) :=
  let files := firstOf [project.platform, user.platform]
  PlatformSetting.ofFields (firstOf [environment.platformOs, files.bind (·.os)])
    (firstOf [environment.platformVersion, files.bind (·.version)])

/-- One variable of the platform is set, and the other field stands in the section of the user
    alone, because the project has no section. -/
def Hides (environment : Environment) (project : ProjectSettings) (user : UserSettings) : Prop :=
  project.platform = none ∧ ∃ below, user.platform = some below ∧
    (environment.platformOs ≠ none ∧ environment.platformVersion = none ∧ below.version ≠ none ∨
      environment.platformOs = none ∧ environment.platformVersion ≠ none ∧ below.os ≠ none)

variable {environment : Environment} {project : ProjectSettings} {user : UserSettings}

/-- What hides the section of the user takes one field of a whole platform away. -/
theorem exists_byField_of_hides (h : environment.Hides project user) :
    ∃ setting, environment.byField project user = .ok (some setting) := by
  obtain ⟨hproject, below, hbelow, hlone⟩ := h
  unfold byField
  rw [hproject, hbelow]
  rcases hlone with ⟨hos, hversion, hother⟩ | ⟨hos, hversion, hother⟩
  · obtain ⟨os, hos⟩ := Option.ne_none_iff_exists'.1 hos
    obtain ⟨version, hother⟩ := Option.ne_none_iff_exists'.1 hother
    exact ⟨⟨os, version⟩, by simp [hos, hversion, hother, PlatformSetting.ofFields]⟩
  · obtain ⟨version, hversion⟩ := Option.ne_none_iff_exists'.1 hversion
    obtain ⟨os, hother⟩ := Option.ne_none_iff_exists'.1 hother
    exact ⟨⟨os, version⟩, by simp [hos, hversion, hother, PlatformSetting.ofFields]⟩

end Environment

namespace SettingsLoader

variable {loader : SettingsLoader} {tree : Tree} {environment : Environment}
  {project : ProjectSettings} {user : UserSettings} {settings : Settings}

theorem platform_of_hides (h : loader.Loads tree environment project user settings)
    (hhides : environment.Hides project user) :
    settings.platform = .error (.invalidValue "platform" .halfPlatform) := by
  obtain ⟨hlaid, rfl⟩ := h.layers
  obtain ⟨hproject, below, -, hlone⟩ := hhides
  rw [settings.platform_eq, hlaid.platform, hproject]
  unfold Environment.platformOver
  rcases hlone with ⟨hos, hversion, -⟩ | ⟨hos, hversion, -⟩
  · obtain ⟨os, hos⟩ := Option.ne_none_iff_exists'.1 hos
    simp [hos, hversion, PlatformSetting.ofFields]
  · obtain ⟨version, hversion⟩ := Option.ne_none_iff_exists'.1 hversion
    simp [hos, hversion, PlatformSetting.ofFields]

theorem platform_of_not_hides (h : loader.Loads tree environment project user settings)
    (hhides : ¬environment.Hides project user) :
    settings.platform = environment.byField project user := by
  obtain ⟨hlaid, rfl⟩ := h.layers
  rw [settings.platform_eq, hlaid.platform]
  unfold Environment.platformOver Environment.byField
  cases hproject : project.platform with
  | some own =>
    -- The section of the project is the one that the variables are laid over.
    cases environment.platformOs <;> cases environment.platformVersion <;> simp
  | none =>
    have hall : ∀ below, settings.user.platform = some below →
        (environment.platformOs ≠ none → environment.platformVersion = none →
          below.version = none) ∧
        (environment.platformOs = none → environment.platformVersion ≠ none →
          below.os = none) := by
      intro below hbelow
      constructor
      · intro hos hversion
        by_contra hother
        exact hhides ⟨hproject, below, hbelow, .inl ⟨hos, hversion, hother⟩⟩
      · intro hos hversion
        by_contra hother
        exact hhides ⟨hproject, below, hbelow, .inr ⟨hos, hversion, hother⟩⟩
    cases hos : environment.platformOs <;> cases hversion : environment.platformVersion <;>
      cases hbelow : settings.user.platform <;> simp_all

end SettingsLoader

/-! ## A desk with a platform of its own

The user builds for macOS 14.0, and a variable asks for version 14.2. -/

namespace Desk

def user : UserSettings := { platform := some ⟨some "macos", some "14.0"⟩ }

def userText : String := "[platform]\nos = \"macos\"\nversion = \"14.0\"\n"

/-- A directory without a project. -/
def bare : Tree := { root := .directory [("user.toml", .file userText)] }

def project : ProjectSettings := { platform := some ⟨some "ios", some "17"⟩ }

/-- The directory of a project that is built for iOS. -/
def settled : Tree :=
  { root := .directory [
      ("gstack.toml", .file "[platform]\nos = \"ios\"\nversion = \"17\"\n"),
      ("user.toml", .file userText)] }

def loader : SettingsLoader := ⟨some ⟨"user.toml"⟩⟩

def environment : Environment := { platformVersion := some "14.2" }

/-- What the variable makes of the settings of the project. -/
def laid : Settings := ⟨{ platform := some ⟨some "ios", some "14.2"⟩ }, user, some ⟨"."⟩⟩

theorem loadFrom_settled : (loader.loadFrom settled environment ⟨"."⟩).1 = .ok laid := by
  decide +kernel

theorem loads_settled : loader.Loads settled environment project user laid := by
  have hproject : SettingsLoader.project settled ⟨"."⟩ = .ok (some ⟨"."⟩, project) := by
    decide +kernel
  exact .directory hproject (.held (by decide +kernel)) loadFrom_settled

end Desk

/-! ## The main statement -/

namespace SettingsLoader

variable {loader : SettingsLoader} {tree : Tree} {environment : Environment}
  {project : ProjectSettings} {user : UserSettings} {settings : Settings}

/-- The platform in effect is the one that variables and files give field by field, unless a single
    variable hides the section of the user: then the loaded settings have half a platform, which is
    refused. -/
theorem platform_eq_byField_iff (h : loader.Loads tree environment project user settings) :
    (settings.platform = environment.byField project user ↔ ¬environment.Hides project user) ∧
    (environment.Hides project user →
      settings.platform = .error (.invalidValue "platform" .halfPlatform)) := by
  refine ⟨⟨fun hfield hhides => ?_, platform_of_not_hides h⟩, platform_of_hides h⟩
  obtain ⟨setting, hsetting⟩ := Environment.exists_byField_of_hides hhides
  rw [platform_of_hides h hhides, hsetting] at hfield
  cases hfield

/-- Laid over the section of a project the variable changes the version and leaves the family. -/
theorem platform_over_project :
    (Desk.loader.loadFrom Desk.settled Desk.environment ⟨"."⟩).1 = .ok Desk.laid ∧
      Desk.laid.platform = .ok (some ⟨"ios", "14.2"⟩) := by
  have hhides : ¬Desk.environment.Hides Desk.project Desk.user := fun h => nomatch h.1
  refine ⟨Desk.loadFrom_settled, ?_⟩
  rw [(platform_eq_byField_iff Desk.loads_settled).1.2 hhides]
  rfl

/-- Where the section stands in the file of the user, a variable for the version alone turns a
    whole platform into half of one. -/
theorem platform_of_lone_variable :
    (∃ settings, (Desk.loader.loadFrom Desk.bare {} ⟨"."⟩).1 = .ok settings ∧
      settings.platform = .ok (some ⟨"macos", "14.0"⟩)) ∧
    ∃ settings, (Desk.loader.loadFrom Desk.bare Desk.environment ⟨"."⟩).1 = .ok settings ∧
      Desk.environment.byField {} Desk.user = .ok (some ⟨"macos", "14.2"⟩) ∧
      settings.platform = .error (.invalidValue "platform" .halfPlatform) :=
  ⟨⟨⟨{}, Desk.user, none⟩, by decide +kernel, rfl⟩,
    ⟨{ platform := some ⟨none, some "14.2"⟩ }, Desk.user, none⟩, by decide +kernel, rfl, rfl⟩

end SettingsLoader

end PackagePlan
