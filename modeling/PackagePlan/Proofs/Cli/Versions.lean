/-
  The versions of a session that come from settings. Settings are checked when they are loaded, and
  the session reads them with another checker. All that is left to go wrong there is the size of a
  group (`version_readable_iff_fits`), and it does go wrong (`wide_version_unreadable`).
-/
import PackagePlan.Proofs.Cli.Session
import PackagePlan.Proofs.Platform
import PackagePlan.Proofs.Settings.Versions

namespace PackagePlan.Cli

namespace Session

variable {around : Surroundings} {overrides : Overrides} {found : Settings}

/-! ## Settings as a session reads them -/

theorem isChecked_of_settings (h : settings around overrides = .ok found) : found.IsChecked := by
  obtain ⟨root, project, laid, -, hlaid, rfl⟩ := settings_eq_ok.1 h
  exact Settings.isChecked_of_layers hlaid (userLayer_iff.2 rfl)

/-- Without the option the text of the settings is read. -/
theorem exists_toolsVersion_iff {text : String} (hnone : overrides.toolsVersion = none)
    (htext : found.toolsVersion = some text) :
    (∃ version, readToolsVersion overrides found = .ok version) ↔
      ∃ version, Version.parse text = .ok version := by
  simp only [readToolsVersion_eq_ok, Version.parse_eq_ok_iff]
  rw [hnone, htext]
  simp

/-- Without the option a known family leaves the version of the settings to be read. -/
theorem exists_platform_iff {setting : PlatformSetting} {family : OsFamily}
    (hnone : overrides.platform = none) (hsetting : found.platform = .ok (some setting))
    (hfamily : OsFamily.parse setting.os = .ok family) :
    (∃ platform, readPlatform overrides found = .ok platform) ↔
      ∃ version, Version.parse setting.version = .ok version := by
  have htext : platformText overrides found = .ok (some setting.render) := by
    unfold platformText
    rw [hnone, hsetting]
    rfl
  unfold readPlatform
  rw [htext, Outcome.ok_bind]
  dsimp only
  rw [Platform.parse_render hfamily]
  simp only [Outcome.map_eq_ok, Outcome.mapError_eq_ok]
  constructor
  · rintro ⟨_, _, ⟨version, hread, -⟩, -⟩
    exact ⟨version, hread⟩
  · rintro ⟨version, hread⟩
    exact ⟨_, _, ⟨version, hread, rfl⟩, rfl⟩

end Session

/-! ## A mill with versions of its own -/

namespace Mill

/-- The settings of a project with a tools version and a platform. -/
def projectText (toolsVersion platformVersion : String) : String :=
  "[toolchain]\ntools_version = \"" ++ toolsVersion ++ "\"\n" ++
    "[platform]\nos = \"macos\"\nversion = \"" ++ platformVersion ++ "\"\n"

/-- A command in the directory of the project. -/
def around (toolsVersion platformVersion : String) : Surroundings where
  tree := {
    root := .directory [("gstack.toml", .file (projectText toolsVersion platformVersion))]
    sound := rfl }
  environment := {}
  directory := ⟨"."⟩

/-- The settings of that command. -/
def found (toolsVersion platformVersion : String) : Settings where
  project := {
    toolchain := some ⟨some toolsVersion⟩
    platform := some ⟨some "macos", some platformVersion⟩ }
  projectRoot := some ⟨"."⟩

/-- The least number that is too large for a component. -/
def wide : String := "18446744073709551616"

end Mill

namespace Session

/-! ## The main statement -/

/-- A text that settings take for a version is read as one exactly if its groups fit into the
    components. So it is with the tools version of a session that comes from settings, and with
    the version of a platform of a known family. -/
theorem version_readable_iff_fits (text : String) :
    (isVersionText text = true →
      ((∃ version, Version.parse text = .ok version) ↔ Version.Fits text)) ∧
    ∀ around overrides found, settings around overrides = .ok found →
      (overrides.toolsVersion = none → found.toolsVersion = some text →
        ((∃ version, readToolsVersion overrides found = .ok version) ↔ Version.Fits text)) ∧
      ∀ os family, overrides.platform = none → found.platform = .ok (some ⟨os, text⟩) →
        OsFamily.parse os = .ok family →
        ((∃ platform, readPlatform overrides found = .ok platform) ↔ Version.Fits text) := by
  refine ⟨Version.exists_parse_iff_fits, fun around overrides found h => ?_⟩
  have hchecked := isChecked_of_settings h
  constructor
  · intro hnone htext
    rw [exists_toolsVersion_iff hnone htext]
    exact Version.exists_parse_iff_fits (hchecked.toolsVersion htext)
  · intro os family hnone hsetting hfamily
    rw [exists_platform_iff hnone hsetting hfamily]
    exact Version.exists_parse_iff_fits (hchecked.version hsetting)

/-- In the mill both versions are read. -/
theorem version_readable_mill :
    (∃ version, Version.parse "5.10.1" = .ok version) ∧
    (∃ version, readToolsVersion {} (Mill.found "5.10" "14.2") = .ok version) ∧
    ∃ platform, readPlatform {} (Mill.found "5.10" "14.2") = .ok platform := by
  have hfound : settings (Mill.around "5.10" "14.2") {} = .ok (Mill.found "5.10" "14.2") := by
    decide +kernel
  have htools := ((version_readable_iff_fits "5.10").2 _ _ _ hfound).1 rfl rfl
  have hplatform := ((version_readable_iff_fits "14.2").2 _ _ _ hfound).2 "macos" .macos rfl rfl
    (by decide +kernel)
  have htext : isVersionText "5.10.1" = true := by decide +kernel
  refine ⟨((version_readable_iff_fits "5.10.1").1 htext).2 ?_, htools.2 ?_, hplatform.2 ?_⟩
  all_goals decide +kernel

/-- A tools version with a number that is too large passes the checks of the settings, and the
    session stops at it. The same goes for the version of the platform. -/
theorem wide_version_unreadable :
    isVersionText Mill.wide = true ∧
    Version.parse Mill.wide = .error (.invalidVersion Mill.wide) ∧
    settings (Mill.around Mill.wide "14.2") {} = .ok (Mill.found Mill.wide "14.2") ∧
    readToolsVersion {} (Mill.found Mill.wide "14.2") =
      .error ⟨"Invalid tools version '18446744073709551616'",
        ["Invalid version '18446744073709551616'"]⟩ ∧
    settings (Mill.around "5.10" Mill.wide) {} = .ok (Mill.found "5.10" Mill.wide) ∧
    readPlatform {} (Mill.found "5.10" Mill.wide) =
      .error ⟨"Invalid platform 'macos:18446744073709551616'",
        ["Invalid version '18446744073709551616'"]⟩ ∧
    ¬∀ text, isVersionText text = true → ∃ version, Version.parse text = .ok version := by
  have hpasses : isVersionText Mill.wide = true := by decide +kernel
  have hstops : Version.parse Mill.wide = .error (.invalidVersion Mill.wide) := by decide +kernel
  have hapart : ¬∀ text, isVersionText text = true →
      ∃ version, Version.parse text = .ok version := by
    intro hall
    obtain ⟨version, hread⟩ := hall _ hpasses
    rw [hstops] at hread
    cases hread
  refine ⟨hpasses, hstops, ?_, ?_, ?_, ?_, hapart⟩
  all_goals decide +kernel

end Session

end PackagePlan.Cli
