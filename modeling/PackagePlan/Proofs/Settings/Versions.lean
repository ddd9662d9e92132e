/-
  The version texts of settings. What settings take for a version is a version in form
  (`isVersionText_iff`), and the two checkers of versions part where a group is too large for a
  component: such a text passes and cannot be read (`Version.exists_parse_iff_fits`). All layers of
  settings are checked, wherever their values come from, so the tools version and the platform
  version in effect are texts of this kind (`Settings.isChecked_of_layers`).
-/
import PackagePlan.Proofs.Constraints
import PackagePlan.Proofs.Settings.Platform

namespace PackagePlan

/-! ## Version texts -/

/-- Nothing stands around a version text, so it is its own groups. -/
theorem trimmed_of_isVersionText {text : String} (h : isVersionText text = true) :
    Text.trimmed text.toList = text.toList := by
  unfold isVersionText at h
  rw [Bool.and_eq_true, List.all_eq_true] at h
  refine Text.trimmed_eq fun c hc => ?_
  rw [← Text.joined_fields '.' text.toList] at hc
  rcases Text.mem_joined hc with rfl | ⟨group, hgroup, hc⟩
  · decide
  · exact Version.isBlank_of_isDigit (Version.isDigit_of_isNumber (h.2 group hgroup) hc)

theorem isVersionText_iff {text : String} :
    isVersionText text = true ↔ Text.trimmed text.toList = text.toList ∧
      (Version.groups text).length ≤ 3 ∧
        ∀ group ∈ Version.groups text, Version.isNumber group = true := by
  have hform (hsame : Text.trimmed text.toList = text.toList) : isVersionText text = true ↔
      (Version.groups text).length ≤ 3 ∧
        ∀ group ∈ Version.groups text, Version.isNumber group = true := by
    unfold isVersionText Version.groups
    rw [hsame, Bool.and_eq_true, decide_eq_true_eq, List.all_eq_true]
  constructor
  · intro h
    have hsame := trimmed_of_isVersionText h
    exact ⟨hsame, (hform hsame).1 h⟩
  · rintro ⟨hsame, h⟩
    exact (hform hsame).2 h

/-- A version text can be read exactly if its groups fit into the components. -/
theorem Version.exists_parse_iff_fits {text : String} (h : isVersionText text = true) :
    (∃ version, Version.parse text = .ok version) ↔ Version.Fits text := by
  obtain ⟨-, hlength, hnumbers⟩ := isVersionText_iff.1 h
  simp only [Version.parse_eq_ok_iff]
  rw [Version.exists_parse?_iff]
  exact ⟨fun hread => hread.2.2, fun hfits => ⟨hlength, hnumbers, hfits⟩⟩

/-! ## Checked settings -/

/-- The values of a layer of settings have passed the checks. -/
structure AreChecked (toolsVersion : Option String) (platform : Option PlatformSection) :
    Prop where
  toolsVersion : ∀ text, toolsVersion = some text → isVersionText text = true
  version : ∀ own text, platform = some own → own.version = some text → isVersionText text = true
  os : ∀ own text, platform = some own → own.os = some text → Text.trimmed text.toList ≠ []

theorem checkToolsVersion_eq_ok {field : String} {stated : Option String} :
    checkToolsVersion field stated = .ok () ↔
      ∀ text, stated = some text → isVersionText text = true := by
  unfold checkToolsVersion
  cases stated <;> simp

namespace PlatformSection

theorem checkOs_eq_ok {stated : Option String} :
    checkOs stated = .ok () ↔ ∀ text, stated = some text → Text.trimmed text.toList ≠ [] := by
  unfold checkOs
  cases stated <;> simp

theorem checkVersion_eq_ok {stated : Option String} :
    checkVersion stated = .ok () ↔ ∀ text, stated = some text → isVersionText text = true := by
  unfold checkVersion
  cases stated <;> simp

theorem check_eq_ok {own : PlatformSection} :
    own.check = .ok () ↔ checkOs own.os = .ok () ∧ checkVersion own.version = .ok () := by
  unfold PlatformSection.check
  rw [Outcome.check_bind_eq_ok]

end PlatformSection

theorem checkPlatform_eq_ok {platform : Option PlatformSection} :
    checkPlatform platform = .ok () ↔ ∀ own, platform = some own → own.check = .ok () := by
  unfold checkPlatform
  cases platform <;> simp

/-- The two checks that each layer makes. -/
theorem areChecked_iff {field : String} {toolsVersion : Option String}
    {platform : Option PlatformSection} :
    (checkToolsVersion field toolsVersion = .ok () ∧ checkPlatform platform = .ok ()) ↔
      AreChecked toolsVersion platform := by
  rw [checkToolsVersion_eq_ok, checkPlatform_eq_ok]
  simp only [PlatformSection.check_eq_ok, PlatformSection.checkOs_eq_ok,
    PlatformSection.checkVersion_eq_ok]
  constructor
  · rintro ⟨htools, hplatform⟩
    exact ⟨htools, fun own text hown => (hplatform own hown).2 text,
      fun own text hown => (hplatform own hown).1 text⟩
  · intro h
    exact ⟨h.toolsVersion, fun own hown =>
      ⟨fun text => h.os own text hown, fun text => h.version own text hown⟩⟩

theorem ProjectSettings.check_eq_ok_iff {project : ProjectSettings} :
    project.check = .ok () ↔ AreChecked project.toolsVersion project.platform := by
  unfold ProjectSettings.check
  rw [Outcome.check_bind_eq_ok, areChecked_iff]

theorem UserSettings.check_eq_ok_iff {user : UserSettings} :
    user.check = .ok () ↔ AreChecked user.toolsVersion user.platform := by
  unfold UserSettings.check
  rw [Outcome.check_bind_eq_ok, areChecked_iff]

/-- What the environment makes of the settings of a project is checked, wherever it comes from. -/
theorem Environment.areChecked_of_override {environment : Environment}
    {project laid : ProjectSettings} (h : environment.override project = .ok laid) :
    AreChecked laid.toolsVersion laid.platform := by
  obtain ⟨first, -, h⟩ := Outcome.bind_eq_ok.1 h
  obtain ⟨last, -, h⟩ := Outcome.bind_eq_ok.1 h
  obtain ⟨hcheck, h⟩ := Outcome.check_bind_eq_ok.1 h
  cases h
  exact ProjectSettings.check_eq_ok_iff.1 hcheck

theorem UserSettings.areChecked_of_load {tree : Tree} {file : Path} {user : UserSettings}
    (h : UserSettings.load tree file = .ok user) : AreChecked user.toolsVersion user.platform := by
  obtain ⟨table, -, h⟩ := Outcome.bind_eq_ok.1 h
  obtain ⟨decoded, -, h⟩ := Outcome.bind_eq_ok.1 h
  obtain ⟨hcheck, h⟩ := Outcome.check_bind_eq_ok.1 h
  cases h
  exact UserSettings.check_eq_ok_iff.1 hcheck

theorem UserLayer.areChecked {tree : Tree} {file : Option Path} {user : UserSettings}
    (h : UserLayer tree file user) : AreChecked user.toolsVersion user.platform := by
  have hnone : AreChecked ({} : UserSettings).toolsVersion ({} : UserSettings).platform :=
    ⟨nofun, nofun, nofun⟩
  cases h with
  | unknown => exact hnone
  | missing => exact hnone
  | broken => exact hnone
  | held h => exact UserSettings.areChecked_of_load h

/-! ## Settings in effect -/

/-- The values of both layers of settings have passed the checks. -/
structure Settings.IsChecked (settings : Settings) : Prop where
  project : AreChecked settings.project.toolsVersion settings.project.platform
  user : AreChecked settings.user.toolsVersion settings.user.platform

namespace Settings

variable {settings : Settings}

theorem isChecked_of_layers {environment : Environment} {project laid : ProjectSettings}
    {tree : Tree} {file root : Option Path} {user : UserSettings}
    (hlaid : environment.override project = .ok laid) (huser : UserLayer tree file user) :
    (⟨laid, user, root⟩ : Settings).IsChecked :=
  ⟨Environment.areChecked_of_override hlaid, huser.areChecked⟩

theorem IsChecked.toolsVersion (h : settings.IsChecked) {text : String}
    (htext : settings.toolsVersion = some text) : isVersionText text = true := by
  unfold Settings.toolsVersion at htext
  rw [Option.orElse_eq_orElse, Option.orElse_eq_or] at htext
  rcases Option.or_eq_some_iff.1 htext with hproject | ⟨-, huser⟩
  · exact h.project.toolsVersion text hproject
  · exact h.user.toolsVersion text huser

/-- The platform in effect stands in a section of one of the layers. -/
theorem exists_section_of_platform {setting : PlatformSetting}
    (h : settings.platform = .ok (some setting)) :
    settings.project.platform = some ⟨some setting.os, some setting.version⟩ ∨
      settings.user.platform = some ⟨some setting.os, some setting.version⟩ := by
  have hsection : settings.platformSection = some ⟨some setting.os, some setting.version⟩ := by
    unfold Settings.platform at h
    split at h
    · cases h
    · next hfound =>
      cases h
      exact hfound
    · cases h
    · cases h
  unfold Settings.platformSection at hsection
  rw [Option.orElse_eq_orElse, Option.orElse_eq_or] at hsection
  exact (Option.or_eq_some_iff.1 hsection).imp_right And.right

theorem IsChecked.version (h : settings.IsChecked) {setting : PlatformSetting}
    (hsetting : settings.platform = .ok (some setting)) :
    isVersionText setting.version = true := by
  rcases exists_section_of_platform hsetting with hproject | huser
  · exact h.project.version _ _ hproject rfl
  · exact h.user.version _ _ huser rfl

end Settings

end PackagePlan
