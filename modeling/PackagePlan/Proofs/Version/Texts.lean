/-
  The texts of versions. `Version.Spells` says, without the reader, how a version can be written:
  one to three groups of digits with dots between them, and blanks around the whole. Just these
  texts are read, with zeros for the components that are missing (`spells_of_parse?`,
  `parse?_of_spells`), and of all the texts of one version its normal form is the same. Main
  statement: `parse?_exact`.
-/
import Mathlib.Data.List.Lex
import PackagePlan.Proofs.Variant
import PackagePlan.Proofs.Version

namespace PackagePlan

namespace Text

/-! ## Blanks around a text -/

/-- Trimming takes blanks away on both sides and nothing else. -/
theorem exists_eq_trimmed (s : List Char) : ∃ before after,
    s = before ++ trimmed s ++ after ∧ (∀ c ∈ before, isBlank c = true) ∧
      ∀ c ∈ after, isBlank c = true := by
  obtain ⟨before, hbefore, hblanks⟩ := exists_eq_append_trimLeft s
  obtain ⟨behind, hbehind, hblanks'⟩ := exists_eq_append_trimLeft (trimLeft s).reverse
  have hright : trimLeft s = trimmed s ++ behind.reverse := by
    have hreverse := congrArg List.reverse hbehind
    rwa [List.reverse_reverse, List.reverse_append] at hreverse
  refine ⟨before, behind.reverse, ?_, List.all_eq_true.1 hblanks, fun c hc => ?_⟩
  · rw [List.append_assoc, ← hright]
    exact hbefore
  · exact List.all_eq_true.1 hblanks' c (List.mem_reverse.1 hc)

/-- What stands between blanks is left when they are taken away, if it holds none itself. -/
theorem trimmed_between {before core after : List Char} (hbefore : ∀ c ∈ before, isBlank c = true)
    (hcore : ∀ c ∈ core, isBlank c = false) (hafter : ∀ c ∈ after, isBlank c = true) :
    trimmed (before ++ core ++ after) = core := by
  have hblanks : ∀ c ∈ after.reverse, isBlank c = true := fun c hc =>
    hafter c (List.mem_reverse.1 hc)
  unfold trimmed trimLeft
  rw [List.append_assoc, List.dropWhile_append_of_pos hbefore]
  cases core with
  | nil =>
    have hnone : after.dropWhile isBlank = [] := by
      rw [← List.append_nil after, List.dropWhile_append_of_pos hafter]
      rfl
    rw [List.nil_append, hnone]
    rfl
  | cons c rest =>
    have hfirst : isBlank c = false := hcore c List.mem_cons_self
    have hall : trimRight (c :: rest) = c :: rest := by
      have hwhole : trimRight (trimLeft (c :: rest)) = c :: rest := trimmed_eq hcore
      rwa [trimLeft_of_not_isBlank hfirst] at hwhole
    rw [List.cons_append, List.dropWhile_cons_of_neg (by simp [hfirst]), ← List.cons_append]
    unfold trimRight at hall ⊢
    rw [List.reverse_append, List.dropWhile_append_of_pos hblanks]
    exact hall

/-- A text is blank if nothing is left of it between the blanks. -/
theorem trimmed_eq_nil_iff {s : List Char} : trimmed s = [] ↔ ∀ c ∈ s, isBlank c = true := by
  constructor
  · intro hnil c hc
    obtain ⟨before, after, hs, hbefore, hafter⟩ := exists_eq_trimmed s
    rw [hnil, List.append_nil] at hs
    rw [hs, List.mem_append] at hc
    exact hc.elim (hbefore c) (hafter c)
  · intro hblank
    have hall := trimmed_between hblank (List.forall_mem_nil _) (List.forall_mem_nil _)
    rwa [List.append_nil, List.append_nil] at hall

end Text

namespace Version

/-! ## The texts that spell a version -/

/-- The components of a version as numbers, from left to right. -/
def numbers (v : Version) : List Nat := [v.major.toNat, v.minor.toNat, v.patch.toNat]

/-- Up to three numbers as the components of a version: those that are missing are zero. -/
def padded (given : List Nat) : List Nat := given ++ List.replicate (3 - given.length) 0

/-- The number that decimal digits denote. -/
def denoted (group : List Char) : Nat := Nat.ofDigitChars 10 group 0

/-- A text writes these groups: one to three groups of digits, each of a number that fits into 64
bits, with dots between them and blanks around the whole. -/
structure Spells (text : String) (groups : List (List Char)) : Prop where
  between : ∃ before after, text.toList = before ++ Text.joined '.' groups ++ after ∧
    (∀ c ∈ before, Text.isBlank c = true) ∧ ∀ c ∈ after, Text.isBlank c = true
  count : groups.length = 1 ∨ groups.length = 2 ∨ groups.length = 3
  digits : ∀ group ∈ groups, group ≠ [] ∧ ∀ c ∈ group, '0' ≤ c ∧ c ≤ '9'
  fits : ∀ group ∈ groups, denoted group < UInt64.size

theorem numberValue_eq_denoted (group : List Char) : numberValue group = denoted group := by
  unfold numberValue denoted digitValue
  rw [← Nat.ofDigitChars_eq_foldl]

theorem isNumber_iff {group : List Char} :
    isNumber group = true ↔ group ≠ [] ∧ ∀ c ∈ group, '0' ≤ c ∧ c ≤ '9' := by
  unfold isNumber isDigit
  simp

/-- A group of digits is read as the number that it denotes. -/
theorem exists_component?_eq {group : List Char} (hnumber : isNumber group = true)
    (hfits : denoted group < UInt64.size) :
    ∃ component, component? group = some component ∧ component.toNat = denoted group := by
  have hvalue : numberValue group < UInt64.size := (numberValue_eq_denoted group).symm ▸ hfits
  refine ⟨UInt64.ofNatLT (numberValue group) hvalue, ?_, ?_⟩
  · unfold component?
    rw [dif_pos ⟨hnumber, hvalue⟩]
  · rw [UInt64.toNat_ofNatLT, numberValue_eq_denoted]

namespace Spells

variable {text : String} {groups : List (List Char)}

theorem isNumber (h : Spells text groups) {group : List Char} (hgroup : group ∈ groups) :
    isNumber group = true :=
  isNumber_iff.2 (h.digits group hgroup)

theorem isDigit (h : Spells text groups) {group : List Char} (hgroup : group ∈ groups) {c : Char}
    (hc : c ∈ group) : isDigit c = true :=
  isDigit_of_isNumber (h.isNumber hgroup) hc

/-- The groups that a text writes are those that the reader takes it apart into. -/
theorem groups_eq (h : Spells text groups) : Version.groups text = groups := by
  obtain ⟨before, after, htext, hbefore, hafter⟩ := h.between
  have hfull : groups ≠ [] := by
    rintro rfl
    have hcount := h.count
    simp at hcount
  have hcore : ∀ c ∈ Text.joined '.' groups, Text.isBlank c = false := by
    intro c hc
    obtain rfl | ⟨group, hgroup, hmem⟩ := Text.mem_joined hc
    · decide
    · exact isBlank_of_isDigit (h.isDigit hgroup hmem)
  have hdots : ∀ group ∈ groups, '.' ∉ group := fun group hgroup hdot =>
    absurd (h.isDigit hgroup hdot) (by decide)
  unfold Version.groups
  rw [htext, Text.trimmed_between hbefore hcore hafter, Text.fields_joined hfull hdots]

end Spells

variable {text : String} {v w : Version}

/-- A text that writes groups is read, and the components are the numbers that the groups denote. -/
theorem parse?_of_spells {groups : List (List Char)} (h : Spells text groups) :
    ∃ v, parse? text = some v ∧ v.numbers = padded (groups.map denoted) := by
  have hread : ∀ group ∈ groups, ∃ component,
      component? group = some component ∧ component.toNat = denoted group := fun group hgroup =>
    exists_component?_eq (h.isNumber hgroup) (h.fits group hgroup)
  have hgroups := h.groups_eq
  unfold Version.groups at hgroups
  unfold parse?
  rw [hgroups]
  match groups, h.count with
  | [first], _ =>
    obtain ⟨major, hmajor, hvalue⟩ := hread first (by simp)
    refine ⟨⟨major, 0, 0⟩, ?_, ?_⟩
    · simp [hmajor]
    · simp [numbers, padded, hvalue]
  | [first, second], _ =>
    obtain ⟨major, hmajor, hvalue⟩ := hread first (by simp)
    obtain ⟨minor, hminor, hvalue'⟩ := hread second (by simp)
    refine ⟨⟨major, minor, 0⟩, ?_, ?_⟩
    · simp [hmajor, hminor]
    · simp [numbers, padded, hvalue, hvalue']
  | [first, second, third], _ =>
    obtain ⟨major, hmajor, hvalue⟩ := hread first (by simp)
    obtain ⟨minor, hminor, hvalue'⟩ := hread second (by simp)
    obtain ⟨patch, hpatch, hvalue''⟩ := hread third (by simp)
    refine ⟨⟨major, minor, patch⟩, ?_, ?_⟩
    · simp [hmajor, hminor, hpatch]
    · simp [numbers, padded, hvalue, hvalue', hvalue'']

/-- A text that is read writes groups. -/
theorem spells_of_parse? (h : parse? text = some v) : Spells text (groups text) := by
  obtain ⟨hfew, hnumbers, hfits⟩ := exists_parse?_iff.1 ⟨v, h⟩
  obtain ⟨before, after, htext, hbefore, hafter⟩ := Text.exists_eq_trimmed text.toList
  refine
    { between := ⟨before, after, ?_, hbefore, hafter⟩
      count := ?_
      digits := fun group hgroup => isNumber_iff.1 (hnumbers group hgroup)
      fits := fun group hgroup => numberValue_eq_denoted group ▸ hfits group hgroup }
  · unfold groups
    rw [Text.joined_fields]
    exact htext
  · have hsome : (groups text).length ≠ 0 :=
      mt List.length_eq_zero_iff.1 (Text.fields_ne_nil '.' _)
    omega

/-! ## The order of versions -/

theorem compare_eq_lt_iff {a b : UInt64} : compare a b = .lt ↔ a.toNat < b.toNat := by
  rw [Std.compare_eq_lt, UInt64.lt_iff_toNat_lt]

theorem numbers_inj : v.numbers = w.numbers ↔ v = w := by
  obtain ⟨major, minor, patch⟩ := v
  obtain ⟨major', minor', patch'⟩ := w
  simp [numbers, UInt64.toNat_inj]

/-- Versions are compared as the lists of their components. -/
theorem lt_iff_numbers_lt : v < w ↔ v.numbers < w.numbers := by
  show compare v w = .lt ↔ _
  have heq : ∀ {a b : UInt64}, compare a b = .eq ↔ a.toNat = b.toNat := by
    intro a b
    rw [Std.LawfulEqOrd.compare_eq_iff_eq, UInt64.toNat_inj]
  rw [compare_eq, Ordering.then_eq_lt, Ordering.then_eq_lt]
  unfold numbers
  simp only [compare_eq_lt_iff, heq, List.cons_lt_cons_iff]
  simp

/-! ## The main statement -/

/-- Versions and their texts: the normal form of a version is read back, a text is read just if it
writes one to three groups of digits that fit, and then as the version of the numbers that they
denote; two texts have one normal form just if they are read as one version; and the versions are
ordered as the lists of their components. -/
theorem parse?_exact :
    (∀ v : Version, parse? v.render = some v) ∧
    (∀ text, (∃ v, parse? text = some v) ↔ ∃ groups, Spells text groups) ∧
    (∀ text groups, Spells text groups →
      ∃ v, parse? text = some v ∧ v.numbers = padded (groups.map denoted)) ∧
    (∀ text other v w, parse? text = some v → parse? other = some w →
      (v.render = w.render ↔ v = w)) ∧
    ∀ v w : Version, (v < w ↔ v.numbers < w.numbers) ∧ (v ≤ w ↔ v.numbers ≤ w.numbers) ∧
      (v = w ↔ v.numbers = w.numbers) := by
  refine ⟨parse?_render, fun text => ⟨?_, ?_⟩, fun text groups => parse?_of_spells,
    fun text other v w _ _ => ⟨fun hrender => ?_, congrArg render⟩,
    fun v w => ⟨lt_iff_numbers_lt, ?_, numbers_inj.symm⟩⟩
  · intro hread
    obtain ⟨v, hv⟩ := hread
    exact ⟨_, spells_of_parse? hv⟩
  · intro hwritten
    obtain ⟨groups, hgroups⟩ := hwritten
    obtain ⟨v, hv, -⟩ := parse?_of_spells hgroups
    exact ⟨v, hv⟩
  · have hread := parse?_render v
    rw [hrender, parse?_render w] at hread
    exact (Option.some.inj hread).symm
  · rw [← not_lt, lt_iff_numbers_lt]
    exact ⟨le_of_not_gt, not_lt_of_ge⟩

/-- With blanks around it, a zero in front and a zero behind, a text is read as the version of the
plain one, and both have its normal form. -/
theorem parse?_exact_seventeen :
    Spells "\t017.00 " ["017".toList, "00".toList] ∧
    (∃ v, parse? "\t017.00 " = some v ∧ v.numbers = [17, 0, 0]) ∧
    parse? "\t017.00 " = some ⟨17, 0, 0⟩ ∧ parse? "17" = some ⟨17, 0, 0⟩ ∧
    (render ⟨17, 0, 0⟩ = render ⟨17, 0, 0⟩ ↔ (⟨17, 0, 0⟩ : Version) = ⟨17, 0, 0⟩) := by
  have hread : parse? "\t017.00 " = some ⟨17, 0, 0⟩ := by decide +kernel
  have hplain : parse? "17" = some ⟨17, 0, 0⟩ := by decide +kernel
  have hgroups : groups "\t017.00 " = ["017".toList, "00".toList] := by decide +kernel
  have hspells := spells_of_parse? hread
  rw [hgroups] at hspells
  exact ⟨hspells, parse?_exact.2.2.1 _ _ hspells, hread, hplain,
    parse?_exact.2.2.2.1 _ _ _ _ hread hplain⟩

end Version

end PackagePlan
