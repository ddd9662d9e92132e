/-
  Which variant applies. A table is accepted when its thresholds are distinct. Of an accepted table
  the entry with the highest threshold that the tools version reaches is chosen
  (`applies_of_select`), and nothing exactly when the tools version is below all thresholds
  (`select_eq_invalidVariant_iff`).
-/
import Mathlib.Data.List.Nodup
import PackagePlan.Proofs.Outcome
import PackagePlan.Variant

namespace PackagePlan

namespace Version

theorem compare_eq (a b : Version) : compare a b =
    (compare a.major b.major).then ((compare a.minor b.minor).then (compare a.patch b.patch)) := rfl

instance : Std.TransOrd Version :=
  inferInstanceAs (Std.TransCmp (compareLex (compareOn fun v : Version => v.major)
    (compareLex (compareOn fun v : Version => v.minor) (compareOn fun v : Version => v.patch))))

theorem not_le {a b : Version} : ¬a ≤ b ↔ b < a := by
  show ¬compare a b ≠ .gt ↔ compare b a = .lt
  rw [Decidable.not_not, Std.OrientedCmp.gt_iff_lt]

theorem not_lt {a b : Version} : ¬a < b ↔ b ≤ a := by
  rw [← not_le, Decidable.not_not]

theorem eq_of_compare {a b : Version} (h : compare a b = .eq) : a = b := by
  rw [compare_eq, Ordering.then_eq_eq, Ordering.then_eq_eq] at h
  obtain ⟨hmajor, hminor, hpatch⟩ := h
  obtain ⟨major, minor, patch⟩ := a
  obtain ⟨major', minor', patch'⟩ := b
  obtain rfl := Std.LawfulEqOrd.eq_of_compare hmajor
  obtain rfl := Std.LawfulEqOrd.eq_of_compare hminor
  obtain rfl := Std.LawfulEqOrd.eq_of_compare hpatch
  rfl

theorem le_iff_isLE {a b : Version} : a ≤ b ↔ (compare a b).isLE = true := by
  show compare a b ≠ .gt ↔ _
  cases compare a b <;> simp

theorem le_refl (a : Version) : a ≤ a := by
  have hself : compare a a = .eq := Std.ReflCmp.compare_self
  rw [le_iff_isLE, hself]
  rfl

theorem le_trans {a b c : Version} (hab : a ≤ b) (hbc : b ≤ c) : a ≤ c := by
  rw [le_iff_isLE] at hab hbc ⊢
  exact Std.TransCmp.isLE_trans hab hbc

theorem le_of_lt {a b : Version} (h : a < b) : a ≤ b := by
  show compare a b ≠ .gt
  rw [show compare a b = .lt from h]
  decide

theorem lt_of_le_of_ne {a b : Version} (hle : a ≤ b) (hne : a ≠ b) : a < b := by
  cases hcompare : compare a b with
  | lt => exact hcompare
  | eq => exact absurd (eq_of_compare hcompare) hne
  | gt => exact absurd hcompare hle

end Version

namespace VariantTable

/-- The thresholds of the variants. -/
def thresholds (table : VariantTable) : List Version :=
  table.entries.map fun entry => entry.2.minToolsVersion

theorem best?_eq_none_iff {capability : Version} {entries : List (String × VariantSpec)} :
    best? capability entries = none ↔
      ∀ entry ∈ entries, capability < entry.2.minToolsVersion := by
  induction entries with
  | nil => simp [best?]
  | cons first rest ih =>
    rw [best?, List.forall_mem_cons, ← ih, ← Version.not_le]
    cases best? capability rest with
    | none => simp
    | some other =>
      dsimp only
      split
      · simp
      · simp

/-- The entry that is chosen has the highest of the thresholds that are reached. -/
theorem best?_eq_some {capability : Version} {entries : List (String × VariantSpec)}
    {best : String × VariantSpec} (h : best? capability entries = some best) :
    best ∈ entries ∧ best.2.minToolsVersion ≤ capability ∧
      ∀ entry ∈ entries, entry.2.minToolsVersion ≤ capability →
        entry.2.minToolsVersion ≤ best.2.minToolsVersion := by
  induction entries generalizing best with
  | nil => cases h
  | cons first rest ih =>
    rw [best?] at h
    split at h
    · next hnone =>
      split at h
      · next hfirst =>
        obtain rfl := Option.some.inj h
        refine ⟨List.mem_cons_self, hfirst,
          List.forall_mem_cons.2 ⟨fun _ => Version.le_refl _, fun entry hentry hreached => ?_⟩⟩
        exact absurd hreached (Version.not_le.2 (best?_eq_none_iff.1 hnone entry hentry))
      · cases h
    · next other hother =>
      obtain ⟨hmem, hreached, hhighest⟩ := ih hother
      split at h
      · next hcondition =>
        obtain ⟨hfirst, habove⟩ : first.2.minToolsVersion ≤ capability ∧
          other.2.minToolsVersion < first.2.minToolsVersion := by simpa using hcondition
        obtain rfl := Option.some.inj h
        refine ⟨List.mem_cons_self, hfirst,
          List.forall_mem_cons.2 ⟨fun _ => Version.le_refl _, fun entry hentry hentryReached => ?_⟩⟩
        exact Version.le_trans (hhighest entry hentry hentryReached) (Version.le_of_lt habove)
      · next hcondition =>
        obtain rfl := Option.some.inj h
        refine ⟨List.mem_cons_of_mem _ hmem, hreached,
          List.forall_mem_cons.2 ⟨fun hfirst => ?_, hhighest⟩⟩
        rw [← Version.not_lt]
        exact fun habove => hcondition (by simp [hfirst, habove])

theorem firstShared?_eq_none_iff {seen : List (Version × String)}
    {entries : List (String × VariantSpec)} :
    firstShared? seen entries = none ↔
      (entries.map fun entry => entry.2.minToolsVersion).Nodup ∧
        ∀ entry ∈ entries, entry.2.minToolsVersion ∉ seen.map (·.1) := by
  induction entries generalizing seen with
  | nil => simp [firstShared?]
  | cons first rest ih =>
    obtain ⟨name, spec⟩ := first
    have hseen : (seen.lookup spec.minToolsVersion).isSome = true ↔
        spec.minToolsVersion ∈ seen.map (·.1) := by
      rw [List.lookup_isSome_iff, List.mem_map]
      simp only [beq_iff_eq]
      exact ⟨fun ⟨entry, hmem, hsame⟩ => ⟨entry, hmem, hsame.symm⟩,
        fun ⟨entry, hmem, hsame⟩ => ⟨entry, hmem, hsame.symm⟩⟩
    rw [firstShared?, List.map_cons, List.nodup_cons, List.forall_mem_cons, ← hseen]
    cases seen.lookup spec.minToolsVersion with
    | some other => simp
    | none =>
      dsimp only
      rw [ih]
      constructor
      · intro h
        obtain ⟨hnodup, hfresh⟩ := h
        refine ⟨⟨fun hmem => ?_, hnodup⟩, Bool.false_ne_true, fun entry hentry hmem => ?_⟩
        · obtain ⟨entry, hentry, hsame⟩ := List.mem_map.1 hmem
          exact hfresh entry hentry (hsame ▸ List.mem_cons_self)
        · exact hfresh entry hentry (List.mem_cons_of_mem _ hmem)
      · intro h
        obtain ⟨⟨hnew, hnodup⟩, -, hfresh⟩ := h
        refine ⟨hnodup, fun entry hentry hmem => ?_⟩
        rcases List.mem_cons.1 hmem with hsame | hmem
        · exact hnew (List.mem_map.2 ⟨entry, hentry, hsame⟩)
        · exact hfresh entry hentry hmem

theorem check_eq_ok_iff {table : VariantTable} :
    table.check = .ok () ↔ table.thresholds.Nodup := by
  have hshared : table.check = .ok () ↔ firstShared? [] table.entries = none := by
    unfold check
    cases firstShared? [] table.entries <;> simp
  rw [hshared, firstShared?_eq_none_iff]
  simp [thresholds]

theorem firstShared?_error {seen : List (Version × String)} {entries : List (String × VariantSpec)}
    {error : BuildError} (h : firstShared? seen entries = some error) :
    ∃ first second threshold,
      error = .invalidDescriptor (.sharedThreshold first second threshold) := by
  induction entries generalizing seen with
  | nil => cases h
  | cons entry rest ih =>
    rw [firstShared?] at h
    split at h
    · exact ⟨_, _, _, (Option.some.inj h).symm⟩
    · exact ih h

theorem check_error {table : VariantTable} {error : BuildError} (h : table.check = .error error) :
    ∃ first second threshold,
      error = .invalidDescriptor (.sharedThreshold first second threshold) := by
  unfold check at h
  split at h
  · next fault hfault =>
    obtain rfl := Except.error.inj h
    exact firstShared?_error hfault
  · cases h

/-- No variant is chosen exactly when there are some, no two of them share a threshold, and the
    tools version is below all thresholds. -/
theorem select_eq_invalidVariant_iff {table : VariantTable} {capability : Version} :
    (∃ named, table.select capability = .error (.invalidVariant named)) ↔
      table.entries ≠ [] ∧ table.thresholds.Nodup ∧
        ∀ threshold ∈ table.thresholds, capability < threshold := by
  have hbelow : best? capability table.entries = none ↔
      ∀ threshold ∈ table.thresholds, capability < threshold := by
    rw [best?_eq_none_iff, thresholds, List.forall_mem_map]
  have hempty : table.isEmpty = true ↔ table.entries = [] := List.isEmpty_iff
  rw [← check_eq_ok_iff, ← hbelow]
  unfold select
  constructor
  · intro h
    obtain ⟨named, h⟩ := h
    split at h
    · cases h
    next hfull =>
    rcases Outcome.bind_eq_error.1 h with h | ⟨_, hcheck, h⟩
    · obtain ⟨_, _, _, hshared⟩ := check_error h
      cases hshared
    · split at h
      · cases h
      · next hnone => exact ⟨mt hempty.2 hfull, hcheck, hnone⟩
  · intro h
    obtain ⟨hne, hcheck, hnone⟩ := h
    refine ⟨capability, ?_⟩
    rw [if_neg (mt hempty.1 hne)]
    refine Outcome.bind_eq_error.2 (.inr ⟨(), hcheck, ?_⟩)
    rw [hnone]

/-- The variant of a table that is meant for a tools version: the implicit one where none is
    declared, and else the declared one whose threshold is the highest that the version reaches. -/
inductive Applies (table : VariantTable) (capability : Version) : Variant → Prop where
  | implicit (undeclared : table.entries = []) : Applies table capability .implicit
  | highest {name : String} {spec : VariantSpec} (declared : (name, spec) ∈ table.entries)
      (reached : spec.minToolsVersion ≤ capability)
      (above : ∀ entry ∈ table.entries, entry.2.minToolsVersion ≤ capability →
        entry = (name, spec) ∨ entry.2.minToolsVersion < spec.minToolsVersion) :
      Applies table capability ⟨name, spec⟩

theorem applies_of_select {table : VariantTable} {capability : Version} {variant : Variant}
    (h : table.select capability = .ok variant) : table.Applies capability variant := by
  unfold select at h
  split at h
  · next hempty =>
    obtain rfl := Except.ok.inj h
    exact .implicit (List.isEmpty_iff.1 hempty)
  · obtain ⟨_, hcheck, h⟩ := Outcome.bind_eq_ok.1 h
    split at h
    · next name spec hbest =>
      obtain rfl := Except.ok.inj h
      obtain ⟨hmem, hreached, hhighest⟩ := best?_eq_some hbest
      refine .highest hmem hreached fun entry hentry hentryReached => ?_
      -- No two entries share a threshold, so only the entry itself can be level with it.
      by_cases hlevel : entry.2.minToolsVersion = spec.minToolsVersion
      · exact .inl (List.inj_on_of_nodup_map (check_eq_ok_iff.1 hcheck) hentry hmem hlevel)
      · exact .inr (Version.lt_of_le_of_ne (hhighest entry hentry hentryReached) hlevel)
    · cases h

end VariantTable

end PackagePlan
