/-
  The written form of a platform. A name of a family holds none of the characters that may stand
  between family and version, so what is written as one text from a known family and a version is
  taken apart into the same two (`Platform.parse_render`). A text that is none, but holds such a
  character, is taken apart there. Then the version is left with the separator that was written, and
  cannot be read. So nothing gets lost between writing and reading
  (`Platform.parse_render_eq_ok_iff`).
-/
import Mathlib.Data.List.TakeWhile
import PackagePlan.Proofs.Constraints
import PackagePlan.Settings.Effective

namespace PackagePlan

/-! ## Characters that are kept -/

namespace Text

/-- What is not blank is not removed from the front of a text. -/
theorem mem_dropWhile_isBlank {c : Char} {s : List Char} (hblank : isBlank c = false)
    (h : c ∈ s) : c ∈ s.dropWhile isBlank := by
  rw [← List.takeWhile_append_dropWhile (p := isBlank) (l := s), List.mem_append] at h
  rcases h with h | h
  · have htaken := List.mem_takeWhile_imp h
    rw [hblank] at htaken
    cases htaken
  · exact h

theorem mem_trimmed {c : Char} {s : List Char} (hblank : isBlank c = false) (h : c ∈ s) :
    c ∈ trimmed s := by
  have hleft : c ∈ trimLeft s := mem_dropWhile_isBlank hblank h
  unfold trimmed trimRight
  rw [List.mem_reverse]
  exact mem_dropWhile_isBlank hblank (List.mem_reverse.2 hleft)

/-- A character without another lower case stays where it is. -/
theorem mem_lowerFrom {c : Char} (hsame : lowerLetter c = c) (hsigma : c.toNat ≠ 0x3A3)
    (hdotted : c.toNat ≠ 0x130) {before s : List Char} (h : c ∈ s) : c ∈ lowerFrom before s := by
  induction s generalizing before with
  | nil => cases h
  | cons first rest ih =>
    rw [lowerFrom, List.mem_append]
    rcases List.mem_cons.1 h with rfl | hrest
    · refine .inl ?_
      rw [if_neg hsigma, if_neg hdotted, hsame]
      exact List.mem_cons_self
    · exact .inr (ih hrest)

/-- A text is split at the separator behind a part that has none. -/
theorem splitFirst?_append {p : Char → Bool} {s rest : List Char} {c : Char}
    (hs : ∀ c ∈ s, p c = false) (hc : p c = true) :
    splitFirst? p (s ++ c :: rest) = some (s, rest) := by
  induction s with
  | nil => simp [splitFirst?, hc]
  | cons first s ih =>
    obtain ⟨hfirst, hs⟩ := List.forall_mem_cons.1 hs
    rw [List.cons_append, splitFirst?, hfirst, ih hs]
    rfl

theorem exists_splitFirst? {p : Char → Bool} {s : List Char} (h : ∃ c ∈ s, p c = true) :
    ∃ before after, splitFirst? p s = some (before, after) := by
  induction s with
  | nil => simp at h
  | cons first rest ih =>
    unfold splitFirst?
    split
    · exact ⟨[], rest, rfl⟩
    · next hfirst =>
      obtain ⟨before, after, hrest⟩ := ih (by simpa [hfirst] using h)
      exact ⟨first :: before, after, by rw [hrest]; rfl⟩

/-- What is added behind a text that can be split goes to the second part. -/
theorem splitFirst?_append_of_some {p : Char → Bool} {s before after : List Char}
    (h : splitFirst? p s = some (before, after)) (more : List Char) :
    splitFirst? p (s ++ more) = some (before, after ++ more) := by
  induction s generalizing before with
  | nil => cases h
  | cons first rest ih =>
    unfold splitFirst? at h
    rw [List.cons_append, splitFirst?]
    split
    · next hfirst =>
      rw [if_pos hfirst] at h
      obtain ⟨rfl, rfl⟩ := Prod.mk.inj (Option.some.inj h)
      rfl
    · next hfirst =>
      rw [if_neg hfirst] at h
      obtain ⟨⟨front, back⟩, hrest, heq⟩ := Option.map_eq_some_iff.1 h
      obtain ⟨rfl, rfl⟩ := Prod.mk.inj heq
      rw [ih hrest]
      rfl

end Text

/-! ## Names of families -/

namespace OsFamily

/-- Every name of a family in lower case. -/
def names : List String := aliases.map (·.1) ++ all.map key

theorem lowercase_mem_names {text : String} {os : OsFamily} (h : parse? text = some os) :
    Text.lowercase (Text.trim text) ∈ names := by
  unfold parse? at h
  unfold names
  rw [List.mem_append]
  dsimp only at h
  split at h
  · next found hfound =>
    have hname := List.find?_some hfound
    exact .inl (List.mem_map.2 ⟨_, List.mem_of_find?_eq_some hfound, beq_iff_eq.1 hname⟩)
  · have hname := List.find?_some h
    exact .inr (List.mem_map.2 ⟨os, List.mem_of_find?_eq_some h, beq_iff_eq.1 hname⟩)

theorem not_separator_of_mem_names :
    ∀ name ∈ names, ∀ c ∈ name.toList, Platform.isSeparator c = false := by
  have hall : (names.all fun name => name.toList.all fun c => !Platform.isSeparator c) = true := by
    decide +kernel
  simpa [List.all_eq_true] using hall

/-- The text of a known family holds no separator. -/
theorem not_separator_of_parse? {text : String} {os : OsFamily} (h : parse? text = some os) :
    ∀ c ∈ text.toList, Platform.isSeparator c = false := by
  intro c hc
  rw [Bool.eq_false_iff]
  intro hseparator
  -- A separator is neither blank nor a letter, so it would stand in the name that was found.
  have hcases : c = ':' ∨ c = '@' := by
    unfold Platform.isSeparator at hseparator
    rw [Bool.or_eq_true, beq_iff_eq, beq_iff_eq] at hseparator
    exact hseparator
  have hkept : Text.isBlank c = false ∧ Text.lowerLetter c = c ∧
      c.toNat ≠ 0x3A3 ∧ c.toNat ≠ 0x130 := by
    rcases hcases with rfl | rfl <;> decide +kernel
  obtain ⟨hblank, hsame, hsigma, hdotted⟩ := hkept
  have hmem : c ∈ (Text.lowercase (Text.trim text)).toList := by
    unfold Text.lowercase Text.trim
    rw [String.toList_ofList, String.toList_ofList]
    exact Text.mem_lowerFrom hsame hsigma hdotted (Text.mem_trimmed hblank hc)
  rw [not_separator_of_mem_names _ (lowercase_mem_names h) c hmem] at hseparator
  cases hseparator

end OsFamily

namespace Version

/-- A text that is read as a version holds blanks, dots and digits only. -/
theorem blank_or_dot_or_digit_of_parse {text : String} {version : Version}
    (h : Version.parse text = .ok version) {c : Char} (hc : c ∈ text.toList) :
    Text.isBlank c = true ∨ c = '.' ∨ isDigit c = true := by
  obtain ⟨-, hnumbers, -⟩ := exists_parse?_iff.1 ⟨version, parse_eq_ok_iff.1 h⟩
  cases hblank : Text.isBlank c with
  | true => exact .inl rfl
  | false =>
    have htrimmed : c ∈ Text.joined '.' (groups text) := by
      unfold groups
      rw [Text.joined_fields]
      exact Text.mem_trimmed hblank hc
    rcases Text.mem_joined htrimmed with hdot | ⟨group, hgroup, hmem⟩
    · exact .inr (.inl hdot)
    · exact .inr (.inr (isDigit_of_isNumber (hnumbers group hgroup) hmem))

end Version

/-! ## Written platforms -/

theorem PlatformSetting.toList_render (setting : PlatformSetting) :
    setting.render.toList = setting.os.toList ++ ':' :: setting.version.toList := by
  simp [PlatformSetting.render]

namespace Platform

variable {setting : PlatformSetting} {platform : Platform}

/-- A family that holds no separator is split off again. -/
theorem split?_render (h : ∀ c ∈ setting.os.toList, isSeparator c = false) :
    split? setting.render = some (setting.os, setting.version) := by
  unfold split?
  rw [setting.toList_render, Text.splitFirst?_append h rfl]
  simp

theorem parse_eq_ok_iff {text os version : String} (h : split? text = some (os, version)) :
    Platform.parse text = .ok platform ↔
      OsFamily.parse os = .ok platform.os ∧ Version.parse version = .ok platform.version := by
  unfold Platform.parse
  rw [h]
  dsimp only
  rw [Outcome.bind_eq_ok]
  constructor
  · rintro ⟨family, hfamily, hrest⟩
    obtain ⟨read, hread, heq⟩ := Outcome.bind_eq_ok.1 hrest
    obtain rfl := Except.ok.inj heq
    exact ⟨hfamily, hread⟩
  · rintro ⟨hfamily, hread⟩
    exact ⟨_, hfamily, Outcome.bind_eq_ok.2 ⟨_, hread, rfl⟩⟩

/-- Where the family holds a separator itself, the text is split there, and the one that was put
between family and version stays in the version. -/
theorem parse_render_of_separator (h : ∃ c ∈ setting.os.toList, isSeparator c = true) :
    Platform.parse setting.render ≠ .ok platform := by
  intro hparse
  obtain ⟨before, after, hfirst⟩ := Text.exists_splitFirst? h
  have hsplit : split? setting.render =
      some (String.ofList before, String.ofList (after ++ ':' :: setting.version.toList)) := by
    unfold split?
    rw [setting.toList_render, Text.splitFirst?_append_of_some hfirst]
    rfl
  have hcolon : ':' ∈ (String.ofList (after ++ ':' :: setting.version.toList)).toList := by simp
  have hkind := Version.blank_or_dot_or_digit_of_parse ((parse_eq_ok_iff hsplit).1 hparse).2 hcolon
  revert hkind
  decide +kernel

/-- A platform of a known family is read as that family at the version that is written. -/
theorem parse_render {os version : String} {family : OsFamily}
    (h : OsFamily.parse os = .ok family) :
    Platform.parse (PlatformSetting.render ⟨os, version⟩) =
      (Version.parse version).map (⟨family, ·⟩) := by
  have hapart := OsFamily.not_separator_of_parse? (OsFamily.parse_eq_ok_iff.1 h)
  have hsplit : split? (PlatformSetting.render ⟨os, version⟩) = some (os, version) :=
    split?_render hapart
  unfold Platform.parse
  rw [hsplit]
  dsimp only
  rw [h]
  cases Version.parse version <;> rfl

/-- Whatever the texts of family and version hold, written as one they are read as a platform exactly
if each is read on its own, and then as the platform of the two. -/
theorem parse_render_eq_ok_iff (setting : PlatformSetting) (platform : Platform) :
    Platform.parse setting.render = .ok platform ↔
      OsFamily.parse setting.os = .ok platform.os ∧
        Version.parse setting.version = .ok platform.version := by
  by_cases hapart : ∀ c ∈ setting.os.toList, isSeparator c = false
  · exact parse_eq_ok_iff (split?_render hapart)
  · have hseparator : ∃ c ∈ setting.os.toList, isSeparator c = true := by simpa using hapart
    constructor
    · intro hparse
      exact absurd hparse (parse_render_of_separator hseparator)
    · rintro ⟨hfamily, -⟩
      exact absurd (OsFamily.not_separator_of_parse? (OsFamily.parse_eq_ok_iff.1 hfamily)) hapart

/-- A family with a separator in it is not taken for another platform. -/
example : Platform.parse (PlatformSetting.render ⟨"macos@14", "2"⟩) =
    .error (.invalidVersion "14:2") := by
  decide +kernel

end Platform

end PackagePlan
