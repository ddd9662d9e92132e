/-
  What may be relied on in settings that have been loaded. A value comes in by the file of the
  project, by a variable or by the file of the user. The first two are checked once they are laid
  over each other, the last one when it is loaded, and a file of the user that does not pass counts
  as absent. So the values in effect have passed the checks, whichever layer they come from.
  Main statement: `load_checked`.
-/
import PackagePlan.Proofs.Settings.Versions
import PackagePlan.Proofs.Version.Texts

namespace PackagePlan

/-! ## What the checks ask -/

/-- A text is one to three groups of digits with dots between them, and nothing else. -/
def IsDotted (text : String) : Prop :=
  ∃ groups, text.toList = Text.joined '.' groups ∧
    (groups.length = 1 ∨ groups.length = 2 ∨ groups.length = 3) ∧
    ∀ group ∈ groups, group ≠ [] ∧ ∀ c ∈ group, '0' ≤ c ∧ c ≤ '9'

theorem isVersionText_iff_isDotted {text : String} : isVersionText text = true ↔ IsDotted text := by
  have hform : isVersionText text = true ↔ (Text.fields '.' text.toList).length ≤ 3 ∧
      ∀ group ∈ Text.fields '.' text.toList, group ≠ [] ∧ ∀ c ∈ group, '0' ≤ c ∧ c ≤ '9' := by
    unfold isVersionText
    rw [Bool.and_eq_true, decide_eq_true_eq, List.all_eq_true]
    simp only [Version.isNumber_iff]
  rw [hform]
  constructor
  · rintro ⟨hfew, hgroups⟩
    have hsome := mt List.length_eq_zero_iff.1 (Text.fields_ne_nil '.' text.toList)
    exact ⟨_, (Text.joined_fields '.' _).symm, by omega, hgroups⟩
  · rintro ⟨groups, htext, hcount, hgroups⟩
    have hfull : groups ≠ [] := by
      rintro rfl
      simp at hcount
    have hdots : ∀ group ∈ groups, '.' ∉ group := fun group hgroup hdot =>
      absurd ((hgroups group hgroup).2 '.' hdot) (by decide)
    rw [htext, Text.fields_joined hfull hdots]
    exact ⟨by omega, hgroups⟩

theorem Settings.IsChecked.os {settings : Settings} (h : settings.IsChecked)
    {setting : PlatformSetting} (hsetting : settings.platform = .ok (some setting)) :
    ∃ c ∈ setting.os.toList, Text.isBlank c = false := by
  have htrimmed : Text.trimmed setting.os.toList ≠ [] := by
    rcases exists_section_of_platform hsetting with hproject | huser
    · exact h.project.os _ _ hproject rfl
    · exact h.user.os _ _ huser rfl
  rw [Ne, Text.trimmed_eq_nil_iff] at htrimmed
  simpa using htrimmed

namespace SettingsLoader

variable {loader : SettingsLoader} {tree : Tree} {environment : Environment} {settings : Settings}

theorem isChecked_of_loadFrom {start : Path}
    (h : (loader.loadFrom tree environment start).1 = .ok settings) : settings.IsChecked := by
  obtain ⟨root, project, laid, -, hlaid, rfl⟩ := loadFrom_eq_ok.1 h
  exact Settings.isChecked_of_layers hlaid (userLayer_iff.2 rfl)

theorem isChecked_of_loadFile {file : Path}
    (h : (loader.loadFile tree environment file).1 = .ok settings) : settings.IsChecked := by
  obtain ⟨project, laid, -, hlaid, rfl⟩ := loadFile_eq_ok.1 h
  exact Settings.isChecked_of_layers hlaid (userLayer_iff.2 rfl)

end SettingsLoader

/-! ## A workbench with a value from each side

The project gives the version of the platform, a variable its family, and the user the tools
version. -/

namespace Workbench

def tree : Tree where
  root := .directory [
    ("gstack.toml", .file "[platform]\nversion = \"14.2\"\n"),
    ("user.toml", .file "[defaults]\ntools_version = \"5.10\"\n")]

def loader : SettingsLoader := ⟨some ⟨"user.toml"⟩⟩

def environment : Environment := { platformOs := some " macOS" }

/-- The settings with a root of the project. -/
def settings (root : String) : Settings where
  project := { platform := some ⟨some " macOS", some "14.2"⟩ }
  user := { defaults := some { toolsVersion := some "5.10" } }
  projectRoot := some ⟨root⟩

end Workbench

namespace SettingsLoader

/-! ## The main statement -/

/-- The version texts that pass are one to three groups of digits with dots between. In settings that
are loaded, from a directory or with a given file, the tools version in effect is such a text, and a
platform in effect has a family that is not blank and a version that is such a text. -/
theorem load_checked :
    (∀ text, isVersionText text = true ↔ IsDotted text) ∧
    ∀ (loader : SettingsLoader) (tree : Tree) (environment : Environment) (settings : Settings),
      ((∃ start, (loader.loadFrom tree environment start).1 = .ok settings) ∨
        ∃ file, (loader.loadFile tree environment file).1 = .ok settings) →
      (∀ text, settings.toolsVersion = some text → isVersionText text = true) ∧
      ∀ setting, settings.platform = .ok (some setting) →
        (∃ c ∈ setting.os.toList, Text.isBlank c = false) ∧
          isVersionText setting.version = true := by
  refine ⟨fun _ => isVersionText_iff_isDotted, fun loader tree environment settings hload => ?_⟩
  have hchecked : settings.IsChecked := by
    rcases hload with ⟨_, hload⟩ | ⟨_, hload⟩
    · exact isChecked_of_loadFrom hload
    · exact isChecked_of_loadFile hload
  exact ⟨fun _ => hchecked.toolsVersion, fun _ hsetting =>
    ⟨hchecked.os hsetting, hchecked.version hsetting⟩⟩

/-- On the workbench all three values are there, and they are as they should be. -/
theorem load_checked_workbench :
    (Workbench.loader.loadFrom Workbench.tree Workbench.environment ⟨"."⟩).1 =
      .ok (Workbench.settings ".") ∧
    (Workbench.loader.loadFile Workbench.tree Workbench.environment ⟨"gstack.toml"⟩).1 =
      .ok (Workbench.settings "") ∧
    isVersionText "5.10" = true ∧ (∃ c ∈ " macOS".toList, Text.isBlank c = false) ∧
      isVersionText "14.2" = true := by
  have hfrom : (Workbench.loader.loadFrom Workbench.tree Workbench.environment ⟨"."⟩).1 =
      .ok (Workbench.settings ".") := by
    decide +kernel
  have hfile : (Workbench.loader.loadFile Workbench.tree Workbench.environment
      ⟨"gstack.toml"⟩).1 = .ok (Workbench.settings "") := by
    decide +kernel
  obtain ⟨htools, -⟩ := load_checked.2 _ _ _ _ (.inl ⟨_, hfrom⟩)
  obtain ⟨-, hplatform⟩ := load_checked.2 _ _ _ _ (.inr ⟨_, hfile⟩)
  exact ⟨hfrom, hfile, htools "5.10" rfl, hplatform ⟨" macOS", "14.2"⟩ rfl⟩

end SettingsLoader

end PackagePlan
