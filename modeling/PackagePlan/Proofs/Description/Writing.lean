/-
  Which descriptions can be written. A document is a text, so a path can be written when its bytes
  spell one, and only then (`OsPath.asText_eq_ok`). A description is changed path by path
  (`PackageDescription.mapM_eq_ok`), so it can be written when all its paths can, and its document
  is read back as what was written, byte by byte (`write_restores`). With one stray byte in one path
  there is no document (`write_stray`).
-/
import PackagePlan.Proofs.Description.RoundTrip

namespace PackagePlan

open Outcome (bind_eq_ok bind_eq_error)

/-! ## Paths -/

namespace OsPath

variable {path : OsPath} {plain : Path}

theorem toPath?_eq_some : path.toPath? = some plain ↔ path = plain.toOs := by
  obtain ⟨bytes⟩ := path
  obtain ⟨text⟩ := plain
  unfold toPath? Path.toOs String.fromUTF8? String.toUTF8
  by_cases hvalid : bytes.IsValidUTF8
  · simp only [hvalid, dite_true, Option.map_some, Option.some.injEq, Path.mk.injEq,
      OsPath.mk.injEq, ← String.toByteArray_inj]
    rfl
  · have hne : bytes ≠ text.toByteArray := fun heq => hvalid (heq ▸ text.isValidUTF8)
    simp [hvalid, hne]

theorem asText_eq_ok : path.asText = .ok plain ↔ path = plain.toOs := by
  rw [← toPath?_eq_some]
  unfold asText
  cases path.toPath? with
  | none => simp
  | some found => simp

/-- The paths that are texts are those whose bytes are valid UTF-8. -/
theorem exists_toOs_iff : (∃ plain : Path, path = plain.toOs) ↔ path.bytes.IsValidUTF8 := by
  constructor
  · rintro ⟨plain, rfl⟩
    exact plain.text.isValidUTF8
  · intro h
    exact ⟨⟨.ofByteArray path.bytes h⟩, rfl⟩

theorem asText_error {error : BuildError} (h : path.asText = .error error) :
    error = .descriptorParse (.rejected "path contains invalid UTF-8 characters") := by
  unfold asText at h
  split at h
  · cases h
  · exact (Except.error.inj h).symm

end OsPath

/-! ## Changing every path -/

section
variable {ε P Q : Type} {f : P → Except ε Q} {g : Q → P}

/-- A change that undoes another one succeeds on what the other one has made. -/
theorem Target.mapM_eq_ok (hfg : ∀ p q, f p = .ok q ↔ p = g q) {target : Target P}
    {changed : Target Q} : target.mapM f = .ok changed ↔ target = changed.map g := by
  obtain ⟨name, dependencies, path, sources, exclude, publicHeaders, searchPaths, settings⟩ := target
  obtain ⟨name', dependencies', path', sources', exclude', publicHeaders', searchPaths', settings'⟩ :=
    changed
  simp only [mapM, map, bind_eq_ok, Outcome.mapM_eq_ok_iff_map hfg,
    Outcome.optionMapM_eq_ok_iff_map hfg, hfg, Target.mk.injEq]
  constructor
  · rintro ⟨_, rfl, _, rfl, _, rfl, _, rfl, h⟩
    cases h
    simp
  · rintro ⟨rfl, rfl, rfl, rfl, rfl, rfl, rfl, rfl⟩
    exact ⟨_, rfl, _, rfl, _, rfl, _, rfl, rfl⟩

/-- A change that fails fails at one of the paths. -/
theorem Target.exists_of_mapM_eq_error {target : Target P} {e : ε}
    (h : target.mapM f = .error e) : ∃ p ∈ target.paths, f p = .error e := by
  unfold paths memberPaths
  simp only [List.mem_cons, List.mem_append, Option.mem_toList]
  unfold mapM at h
  rcases bind_eq_error.1 h with h | ⟨_, -, h⟩
  · exact ⟨_, .inl rfl, h⟩
  rcases bind_eq_error.1 h with h | ⟨_, -, h⟩
  · obtain ⟨p, hp, h⟩ := Outcome.exists_of_mapM_eq_error h
    exact ⟨p, .inr (.inl (.inl hp)), h⟩
  rcases bind_eq_error.1 h with h | ⟨_, -, h⟩
  · obtain ⟨p, hp, h⟩ := Outcome.exists_of_optionMapM_eq_error h
    exact ⟨p, .inr (.inr hp), h⟩
  rcases bind_eq_error.1 h with h | ⟨_, -, h⟩
  · obtain ⟨p, hp, h⟩ := Outcome.exists_of_mapM_eq_error h
    exact ⟨p, .inr (.inl (.inr hp)), h⟩
  · cases h

theorem Target.paths_map (target : Target Q) : (target.map g).paths = target.paths.map g := by
  unfold paths memberPaths map
  cases target.publicHeaders with
  | none => simp
  | some dir => simp

namespace PackageDescription

theorem mapM_eq_ok (hfg : ∀ p q, f p = .ok q ↔ p = g q) {description : PackageDescription P}
    {changed : PackageDescription Q} :
    description.mapM f = .ok changed ↔ description = changed.map g := by
  obtain ⟨name, standard, targets, products, variants⟩ := description
  obtain ⟨name', standard', targets', products', variants'⟩ := changed
  simp only [mapM, map, bind_eq_ok,
    Outcome.mapM_eq_ok_iff_map fun _ _ => Target.mapM_eq_ok hfg, PackageDescription.mk.injEq]
  constructor
  · rintro ⟨_, rfl, h⟩
    cases h
    simp
  · rintro ⟨rfl, rfl, rfl, rfl, rfl⟩
    exact ⟨_, rfl, rfl⟩

theorem exists_of_mapM_eq_error {description : PackageDescription P} {e : ε}
    (h : description.mapM f = .error e) : ∃ p ∈ description.paths, f p = .error e := by
  unfold mapM at h
  rcases bind_eq_error.1 h with h | ⟨_, -, h⟩
  · obtain ⟨target, htarget, h⟩ := Outcome.exists_of_mapM_eq_error h
    obtain ⟨p, hp, h⟩ := Target.exists_of_mapM_eq_error h
    exact ⟨p, List.mem_flatMap.2 ⟨target, htarget, hp⟩, h⟩
  · cases h

theorem paths_map (description : PackageDescription Q) :
    (description.map g).paths = description.paths.map g := by
  unfold paths map
  rw [List.flatMap_map, List.map_flatMap]
  simp only [Target.paths_map]

end PackageDescription

end

/-! ## The document -/

namespace PackageDescription

variable {description : PackageDescription OsPath} {text : String} {error : BuildError}

theorem write_eq_ok :
    description.write = .ok text ↔ ∃ plain : PackageDescription,
      description = plain.map Path.toOs ∧ plain.render = text := by
  unfold write
  simp only [bind_eq_ok, mapM_eq_ok fun _ _ => OsPath.asText_eq_ok]
  refine exists_congr fun plain => and_congr_right fun _ => ?_
  exact ⟨Except.ok.inj, congrArg Except.ok⟩

theorem exists_of_write_error (h : description.write = .error error) :
    ∃ path ∈ description.paths, path.asText = .error error := by
  unfold write at h
  rcases bind_eq_error.1 h with h | ⟨_, -, h⟩
  · exact exists_of_mapM_eq_error h
  · cases h

/-- Nothing but a path can be amiss. -/
theorem write_error (h : description.write = .error error) :
    error = .descriptorParse (.rejected "path contains invalid UTF-8 characters") := by
  obtain ⟨path, -, herror⟩ := exists_of_write_error h
  exact OsPath.asText_error herror

/-- A description can be written when every path is a text, and only then. One that was read from a
document has no other paths. -/
theorem exists_write_iff : (∃ text, description.write = .ok text) ↔
    ∀ path ∈ description.paths, path.bytes.IsValidUTF8 := by
  constructor
  · rintro ⟨text, h⟩ path hpath
    obtain ⟨plain, rfl, -⟩ := write_eq_ok.1 h
    rw [paths_map] at hpath
    obtain ⟨path, -, rfl⟩ := List.mem_map.1 hpath
    exact path.text.isValidUTF8
  · intro hvalid
    cases h : description.write with
    | ok text => exact ⟨text, rfl⟩
    | error error =>
      obtain ⟨path, hpath, herror⟩ := exists_of_write_error h
      obtain ⟨plain, hplain⟩ := OsPath.exists_toOs_iff.2 (hvalid path hpath)
      rw [OsPath.asText_eq_ok.2 hplain] at herror
      cases herror

/-- What becomes of a description when it is written. -/
structure Documented (description : PackageDescription OsPath) : Prop where
  /-- It succeeds when every path is a text, and only then. -/
  written_iff : (∃ text, description.write = .ok text) ↔
    ∀ path ∈ description.paths, path.bytes.IsValidUTF8
  /-- The document is read back as the description, with its paths byte by byte. -/
  restored : ∀ text, description.write = .ok text →
    ∃ again : PackageDescription, parse text = .ok again ∧ again.map Path.toOs = description
  refused : ∀ error, description.write = .error error →
    error = .descriptorParse (.rejected "path contains invalid UTF-8 characters")

/-- A description can be written when its paths are texts, and its document is read back as the
description. -/
theorem write_restores (description : PackageDescription OsPath) : description.Documented where
  written_iff := exists_write_iff
  restored text h := by
    obtain ⟨plain, rfl, rfl⟩ := write_eq_ok.1 h
    exact ⟨plain, plain.render_parses_back, rfl⟩
  refused _ h := write_error h

/-- A package with a target in a directory whose name is a single byte, which no text is. -/
def stray : PackageDescription OsPath :=
  { name := "stray", targets := [{ name := "t", path := ⟨⟨#[0xff]⟩⟩ }] }

/-- It has no document, so there is nothing to read back. -/
theorem write_stray :
    stray.write = .error (.descriptorParse (.rejected "path contains invalid UTF-8 characters")) ∧
    ¬∃ text, stray.write = .ok text ∧
      ∃ again : PackageDescription, parse text = .ok again ∧ again.map Path.toOs = stray := by
  have hunwritten : ¬∃ text, stray.write = .ok text := by
    rw [exists_write_iff]
    decide
  refine ⟨?_, fun ⟨text, htext, _⟩ => hunwritten ⟨text, htext⟩⟩
  cases h : stray.write with
  | ok text => exact absurd ⟨text, h⟩ hunwritten
  | error error => rw [write_error h]

end PackageDescription

end PackagePlan
