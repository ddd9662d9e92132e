/-
  The written form of a version. Reading the normal form gives the version back
  (`parse?_render`): the decimal digits of a component denote it, and they hold neither dots nor
  blanks. The texts that can be read are those of one to three groups of digits, each of a number
  that is no larger than a component (`exists_parse?_iff`).
-/
import PackagePlan.Proofs.Outcome
import PackagePlan.Version

namespace PackagePlan

namespace Text

/-- A text without blanks at all has none to remove. -/
theorem trimmed_eq {s : List Char} (h : ∀ c ∈ s, isBlank c = false) : trimmed s = s := by
  have hleft : ∀ t : List Char, (∀ c ∈ t, isBlank c = false) → t.dropWhile isBlank = t := by
    intro t ht
    cases t with
    | nil => rfl
    | cons c rest => exact trimLeft_of_not_isBlank (ht c List.mem_cons_self)
  unfold trimmed trimRight trimLeft
  rw [hleft s h, hleft s.reverse fun c hc => h c (List.mem_reverse.1 hc), List.reverse_reverse]

end Text

namespace Version

/-- The decimal digits of a component. -/
def digits (component : UInt64) : List Char := Nat.toDigits 10 component.toNat

theorem isDigit_of_mem_digits {component : UInt64} {c : Char} (h : c ∈ digits component) :
    isDigit c = true := by
  have hdigit := Nat.isDigit_of_mem_toDigits (by decide) (by decide) h
  unfold isDigit
  unfold Char.isDigit at hdigit
  simpa [Char.le_def] using hdigit

theorem isBlank_of_isDigit {c : Char} (h : isDigit c = true) : Text.isBlank c = false := by
  have hrange : 48 ≤ c.toNat ∧ c.toNat ≤ 57 := by
    unfold isDigit at h
    rw [Bool.and_eq_true, decide_eq_true_eq, decide_eq_true_eq] at h
    exact h
  rw [Bool.eq_false_iff]
  intro hblank
  obtain ⟨range, hmem, hlow, hhigh⟩ := Text.inRanges_eq_true_iff.1 hblank
  simp only [Text.blankRanges, List.mem_cons, List.not_mem_nil, or_false] at hmem
  rcases hmem with rfl | rfl | rfl | rfl | rfl | rfl | rfl | rfl | rfl | rfl <;> omega

theorem isDigit_of_isNumber {group : List Char} (h : isNumber group = true) {c : Char}
    (hc : c ∈ group) : isDigit c = true := by
  unfold isNumber at h
  rw [Bool.and_eq_true, List.all_eq_true] at h
  exact h.2 c hc

theorem dot_not_mem_digits (component : UInt64) : '.' ∉ digits component := by
  intro h
  exact absurd (isDigit_of_mem_digits h) (by decide)

theorem numberValue_digits (component : UInt64) :
    numberValue (digits component) = component.toNat := by
  unfold numberValue digits digitValue
  rw [← Nat.ofDigitChars_eq_foldl, Nat.ofDigitChars_ten_toDigits]

/-- The digits of a component denote it. -/
theorem component?_digits (component : UInt64) :
    component? (digits component) = some component := by
  have hnumber : isNumber (digits component) = true := by
    unfold isNumber
    rw [Bool.and_eq_true, List.all_eq_true]
    refine ⟨by simp [digits, Nat.toDigits_ne_nil], fun c => isDigit_of_mem_digits⟩
  have hvalue : numberValue (digits component) < UInt64.size := by
    rw [numberValue_digits]
    exact component.toNat_lt_size
  unfold component?
  rw [dif_pos ⟨hnumber, hvalue⟩]
  refine congrArg some (UInt64.toNat_inj.1 ?_)
  rw [UInt64.toNat_ofNatLT, numberValue_digits]

/-- The stretches of the normal form between its dots. -/
def stretches (v : Version) : List (List Char) :=
  if v.patch = 0 then [digits v.major, digits v.minor]
  else [digits v.major, digits v.minor, digits v.patch]

theorem toList_render (v : Version) : v.render.toList = Text.joined '.' v.stretches := by
  unfold render stretches
  split <;> simp [Text.joined, digits]

theorem mem_stretches {v : Version} {stretch : List Char} (h : stretch ∈ v.stretches) :
    ∃ component, stretch = digits component := by
  unfold stretches at h
  split at h
  all_goals
    simp only [List.mem_cons, List.not_mem_nil, or_false] at h
  · rcases h with rfl | rfl <;> exact ⟨_, rfl⟩
  · rcases h with rfl | rfl | rfl <;> exact ⟨_, rfl⟩

theorem trimmed_render (v : Version) : Text.trimmed v.render.toList = v.render.toList := by
  refine Text.trimmed_eq fun c hc => ?_
  rw [toList_render] at hc
  obtain rfl | ⟨stretch, hstretch, hc⟩ := Text.mem_joined hc
  · decide
  · obtain ⟨component, rfl⟩ := mem_stretches hstretch
    exact isBlank_of_isDigit (isDigit_of_mem_digits hc)

theorem fields_render (v : Version) : Text.fields '.' v.render.toList = v.stretches := by
  rw [toList_render, Text.fields_joined]
  · unfold stretches
    split <;> simp
  · intro stretch hstretch
    obtain ⟨component, rfl⟩ := mem_stretches hstretch
    exact dot_not_mem_digits component

/-- Reading the normal form of a version gives the version back. -/
theorem parse?_render (v : Version) : parse? v.render = some v := by
  unfold parse?
  rw [trimmed_render, fields_render]
  unfold stretches
  by_cases hpatch : v.patch = 0
  · rw [if_pos hpatch]
    simp only [List.mapM_cons, component?_digits, List.mapM_nil]
    show some (⟨v.major, v.minor, 0⟩ : Version) = some v
    rw [← hpatch]
  · rw [if_neg hpatch]
    simp only [List.mapM_cons, component?_digits, List.mapM_nil]
    rfl

/-! ## The texts that can be read -/

/-- The stretches between the dots of a text, without the blanks around it. -/
def groups (text : String) : List (List Char) := Text.fields '.' (Text.trimmed text.toList)

/-- No group denotes a number that is too large for a component. -/
def Fits (text : String) : Prop := ∀ group ∈ groups text, numberValue group < UInt64.size

instance (text : String) : Decidable (Fits text) :=
  inferInstanceAs (Decidable (∀ group ∈ groups text, numberValue group < UInt64.size))

theorem exists_component?_iff {digits : List Char} :
    (∃ component, component? digits = some component) ↔
      isNumber digits = true ∧ numberValue digits < UInt64.size := by
  unfold component?
  split
  · next h => exact ⟨fun _ => h, fun _ => ⟨_, rfl⟩⟩
  · next h => exact ⟨nofun, fun hboth => absurd hboth h⟩

theorem exists_components_iff {text : String} :
    (∃ components, (groups text).mapM component? = some components) ↔
      (∀ group ∈ groups text, isNumber group = true) ∧ Fits text := by
  unfold Fits
  rw [Outcome.exists_mapM_eq_some_iff, ← forall₂_and]
  simp only [exists_component?_iff]

/-- A text is read exactly if it is, without the blanks around it, one to three groups of digits
    that fit into the components. -/
theorem exists_parse?_iff {text : String} :
    (∃ v, parse? text = some v) ↔
      (groups text).length ≤ 3 ∧ (∀ group ∈ groups text, isNumber group = true) ∧ Fits text := by
  rw [← exists_components_iff]
  constructor
  · rintro ⟨v, hv⟩
    have hcomponents : ∃ components, (groups text).mapM component? = some components ∧
        components.length ≤ 3 := by
      unfold parse? at hv
      split at hv
      · next h => exact ⟨_, h, by simp⟩
      · next h => exact ⟨_, h, by simp⟩
      · next h => exact ⟨_, h, by simp⟩
      · cases hv
    obtain ⟨components, hread, hlength⟩ := hcomponents
    rw [(Outcome.mapM_eq_some.1 hread).length_eq]
    exact ⟨hlength, components, hread⟩
  · rintro ⟨hlength, components, hread⟩
    have hsame := (Outcome.mapM_eq_some.1 hread).length_eq
    have hsome : groups text ≠ [] := Text.fields_ne_nil '.' _
    unfold groups at hread
    unfold parse?
    rw [hread]
    match components with
    | [] => exact absurd (List.length_eq_zero_iff.1 hsame) hsome
    | [_] => exact ⟨_, rfl⟩
    | [_, _] => exact ⟨_, rfl⟩
    | [_, _, _] => exact ⟨_, rfl⟩
    | _ :: _ :: _ :: _ :: _ =>
      simp only [List.length_cons] at hsame
      omega

end Version

end PackagePlan
