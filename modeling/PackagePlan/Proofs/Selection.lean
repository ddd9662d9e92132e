/-
  The selection of a variant beside the list of the names by threshold. A table that is accepted has
  one entry with the highest threshold that a tools version reaches, it is the one selected
  (`select_eq_ok_iff`), and its name is the last one in the sorted list of names that is reached
  (`getLast?_reachedNames`). A higher tools version selects a variant that is no lower. Main
  statement: `select_highest_reached`.
-/
import PackagePlan.Proofs.Catalog
import PackagePlan.Proofs.Variant

namespace PackagePlan

namespace Version

theorem le_antisymm {a b : Version} (hab : a ≤ b) (hba : b ≤ a) : a = b := by
  by_contra hne
  exact not_le.2 (lt_of_le_of_ne hab hne) hba

/-! ## Sorting by version -/

section
variable {α : Type} {version : α → Version} {item : α} {items done : List α}

theorem place_perm : (place version item items).Perm (item :: items) := by
  induction items with
  | nil => exact List.Perm.refl _
  | cons other rest ih =>
    rw [place]
    split
    · exact List.Perm.refl _
    · exact (ih.cons other).trans (List.Perm.swap item other rest)

theorem pairwise_place (h : items.Pairwise fun a b => version a ≤ version b) :
    (place version item items).Pairwise fun a b => version a ≤ version b := by
  induction items with
  | nil => exact List.pairwise_singleton _ _
  | cons other rest ih =>
    obtain ⟨hother, hrest⟩ := List.pairwise_cons.1 h
    rw [place]
    split
    · next hbelow =>
      refine List.pairwise_cons.2 ⟨fun later hlater => ?_, h⟩
      rcases List.mem_cons.1 hlater with rfl | hlater
      · exact le_of_lt hbelow
      · exact le_trans (le_of_lt hbelow) (hother later hlater)
    · next habove =>
      refine List.pairwise_cons.2 ⟨fun later hlater => ?_, ih hrest⟩
      rcases List.mem_cons.1 (place_perm.mem_iff.1 hlater) with rfl | hlater
      · exact not_lt.1 habove
      · exact hother later hlater

theorem sortOn_perm : (sortOn version items).Perm items := by
  have hfold : ∀ done : List α,
      (items.foldl (fun done item => place version item done) done).Perm (items ++ done) := by
    induction items with
    | nil => exact fun done => List.Perm.refl done
    | cons item rest ih =>
      intro done
      have hplaced : (rest ++ place version item done).Perm (rest ++ item :: done) :=
        place_perm.append_left rest
      exact ((ih _).trans hplaced).trans List.perm_middle
  have hall := hfold []
  rwa [List.append_nil] at hall

theorem pairwise_sortOn : (sortOn version items).Pairwise fun a b => version a ≤ version b := by
  have hfold : ∀ done : List α, (done.Pairwise fun a b => version a ≤ version b) →
      (items.foldl (fun done item => place version item done) done).Pairwise
        fun a b => version a ≤ version b := by
    induction items with
    | nil => exact fun done h => h
    | cons item rest ih => exact fun done h => ih _ (pairwise_place h)
  exact hfold [] List.Pairwise.nil

end

end Version

namespace VariantTable

variable {table : VariantTable} {capability : Version} {entry other : String × VariantSpec}

/-- The threshold of a declared name. -/
def threshold? (table : VariantTable) (name : String) : Option Version :=
  (table.get? name).map (·.minToolsVersion)

/-- The names whose threshold the tools version reaches, by ascending threshold. -/
def reachedNames (table : VariantTable) (capability : Version) : List String :=
  table.names.filter fun name =>
    (table.threshold? name).any fun threshold => decide (threshold ≤ capability)

/-- Two variants of the table have the same threshold. -/
def SharesThreshold (table : VariantTable) : Prop :=
  ∃ a ∈ table.entries, ∃ b ∈ table.entries,
    a.1 ≠ b.1 ∧ a.2.minToolsVersion = b.2.minToolsVersion

/-- A declared variant with the highest of the thresholds that the tools version reaches. -/
structure IsHighest (table : VariantTable) (capability : Version) (entry : String × VariantSpec) :
    Prop where
  declared : entry ∈ table.entries
  reached : entry.2.minToolsVersion ≤ capability
  highest : ∀ other ∈ table.entries, other.2.minToolsVersion ≤ capability →
    other.2.minToolsVersion ≤ entry.2.minToolsVersion

/-! ## Thresholds -/

theorem threshold?_of_mem (h : entry ∈ table.entries) :
    table.threshold? entry.1 = some entry.2.minToolsVersion := by
  unfold threshold?
  rw [Catalog.get?_eq_some_iff.2 h, Option.map_some]

theorem sharesThreshold_iff : table.SharesThreshold ↔ ¬table.thresholds.Nodup := by
  have hkeys := table.nodup_keys
  unfold SharesThreshold thresholds
  rw [List.nodup_map_iff_inj_on hkeys.of_map]
  push Not
  constructor
  · rintro ⟨a, ha, b, hb, hname, hsame⟩
    exact ⟨a, ha, b, hb, hsame, fun heq => hname (congrArg Prod.fst heq)⟩
  · rintro ⟨a, ha, b, hb, hsame, hne⟩
    exact ⟨a, ha, b, hb, fun hname => hne (List.inj_on_of_nodup_map hkeys ha hb hname), hsame⟩

/-! ## The highest entry -/

theorem IsHighest.unique (hdistinct : table.thresholds.Nodup) (h : table.IsHighest capability entry)
    (hother : table.IsHighest capability other) : other = entry := by
  have hle := h.highest other hother.declared hother.reached
  have hge := hother.highest entry h.declared h.reached
  exact List.inj_on_of_nodup_map hdistinct hother.declared h.declared (Version.le_antisymm hle hge)

theorem isHighest_of_best? (h : best? capability table.entries = some entry) :
    table.IsHighest capability entry := by
  obtain ⟨hmem, hreached, hhighest⟩ := best?_eq_some h
  exact ⟨hmem, hreached, hhighest⟩

/-- Where a threshold is reached, some entry has the highest one. -/
theorem exists_best? (hmem : entry ∈ table.entries)
    (hreached : entry.2.minToolsVersion ≤ capability) :
    ∃ best, best? capability table.entries = some best := by
  cases hbest : best? capability table.entries with
  | some best => exact ⟨best, rfl⟩
  | none => exact absurd hreached (Version.not_le.2 (best?_eq_none_iff.1 hbest entry hmem))

/-! ## The selection -/

theorem select_eq_invalidDescriptor_iff (hsome : table.entries ≠ []) :
    (∃ fault, table.select capability = .error (.invalidDescriptor fault)) ↔
      ¬table.thresholds.Nodup := by
  have hfull : ¬table.isEmpty = true := mt List.isEmpty_iff.1 hsome
  rw [← check_eq_ok_iff]
  unfold select
  rw [if_neg hfull]
  constructor
  · rintro ⟨fault, h⟩ hcheck
    rcases Outcome.bind_eq_error.1 h with h | ⟨_, -, h⟩
    · cases h.symm.trans hcheck
    · split at h
      · cases h
      · cases h
  · intro hcheck
    cases hresult : table.check with
    | ok _ => exact absurd hresult hcheck
    | error error =>
      obtain ⟨first, second, threshold, rfl⟩ := check_error hresult
      exact ⟨_, rfl⟩

/-- A tools version that is refused is named in the error. -/
theorem eq_of_select_eq_invalidVariant {named : Version}
    (h : table.select capability = .error (.invalidVariant named)) : named = capability := by
  unfold select at h
  split at h
  · cases h
  rcases Outcome.bind_eq_error.1 h with h | ⟨_, -, h⟩
  · obtain ⟨_, _, _, hshared⟩ := check_error h
    cases hshared
  · split at h
    · cases h
    · cases h
      rfl

/-- The variant that is selected is the declared one with the highest threshold that is reached. -/
theorem select_eq_ok_iff (hsome : table.entries ≠ []) {variant : Variant} :
    table.select capability = .ok variant ↔
      table.thresholds.Nodup ∧ table.IsHighest capability (variant.name, variant.spec) := by
  have hfull : ¬table.isEmpty = true := mt List.isEmpty_iff.1 hsome
  rw [← check_eq_ok_iff]
  unfold select
  rw [if_neg hfull, Outcome.check_bind_eq_ok]
  refine and_congr_right fun hcheck => ?_
  have hdistinct := check_eq_ok_iff.1 hcheck
  constructor
  · intro h
    split at h
    · next name spec hbest =>
      obtain rfl := Except.ok.inj h
      exact isHighest_of_best? hbest
    · cases h
  · intro h
    obtain ⟨best, hbest⟩ := exists_best? h.declared h.reached
    obtain rfl := h.unique hdistinct (isHighest_of_best? hbest)
    rw [hbest]

/-! ## The names by threshold -/

theorem names_perm : table.names.Perm table.keys :=
  Version.sortOn_perm.map _

theorem pairwise_names : table.names.Pairwise fun a b =>
    ∀ low ∈ table.threshold? a, ∀ high ∈ table.threshold? b, low ≤ high := by
  unfold names
  rw [List.pairwise_map]
  refine Version.pairwise_sortOn.imp_of_mem ?_
  intro a b ha hb hle low hlow high hhigh
  rw [threshold?_of_mem (Version.sortOn_perm.mem_iff.1 ha)] at hlow
  rw [threshold?_of_mem (Version.sortOn_perm.mem_iff.1 hb)] at hhigh
  obtain rfl := Option.some.inj hlow
  obtain rfl := Option.some.inj hhigh
  exact hle

theorem reachedNames_eq : table.reachedNames capability =
    ((Version.sortOn (fun entry => entry.2.minToolsVersion) table.entries).filter fun entry =>
      decide (entry.2.minToolsVersion ≤ capability)).map (·.1) := by
  unfold reachedNames names
  rw [List.filter_map]
  refine congrArg _ (List.filter_congr fun entry hentry => ?_)
  rw [Function.comp_apply, threshold?_of_mem (Version.sortOn_perm.mem_iff.1 hentry)]
  rfl

/-- The last name whose threshold is reached is the one of the highest entry. -/
theorem getLast?_reachedNames (hdistinct : table.thresholds.Nodup)
    (h : table.IsHighest capability entry) :
    (table.reachedNames capability).getLast? = some entry.1 := by
  rw [reachedNames_eq, List.getLast?_map]
  generalize hreached : (Version.sortOn (fun entry : String × VariantSpec =>
    entry.2.minToolsVersion) table.entries).filter
      (fun entry => decide (entry.2.minToolsVersion ≤ capability)) = reached
  have hmem : ∀ other, other ∈ reached ↔
      other ∈ table.entries ∧ other.2.minToolsVersion ≤ capability := by
    intro other
    rw [← hreached, List.mem_filter, Version.sortOn_perm.mem_iff, decide_eq_true_eq]
  have hsorted : reached.Pairwise fun a b => a.2.minToolsVersion ≤ b.2.minToolsVersion :=
    hreached ▸ Version.pairwise_sortOn.filter _
  have hentry : entry ∈ reached := (hmem entry).2 ⟨h.declared, h.reached⟩
  obtain ⟨front, last, rfl⟩ := (List.eq_nil_or_concat reached).resolve_left
    (List.ne_nil_of_mem hentry)
  rw [List.concat_eq_append] at hentry hsorted hmem ⊢
  have hlast := (hmem last).1 (List.mem_append_right _ (List.mem_singleton_self last))
  have hle : entry.2.minToolsVersion ≤ last.2.minToolsVersion := by
    rcases List.mem_append.1 hentry with hfront | hend
    · exact (List.pairwise_append.1 hsorted).2.2 entry hfront last (List.mem_singleton_self last)
    · rw [List.mem_singleton.1 hend]
      exact Version.le_refl _
  have hhighest : table.IsHighest capability last := by
    refine ⟨hlast.1, hlast.2, fun other hother hreached => ?_⟩
    exact Version.le_trans (h.highest other hother hreached) hle
  rw [List.getLast?_concat, h.unique hdistinct hhighest, Option.map_some]

/-! ## The main statement -/

/-- For every table that is not empty and every tools version: the selection refuses the table
    exactly if two variants share a threshold, and otherwise the tools version exactly if it is
    below all thresholds. In all other cases it gives the one declared variant whose threshold is
    the highest that is reached, and its name is the last of the sorted names that is reached. The
    sorted names are the declared ones by ascending threshold. Where a tools version selects a
    variant, a higher one selects a variant with a threshold that is no lower. -/
theorem select_highest_reached {table : VariantTable} (hsome : table.entries ≠ [])
    (capability : Version) :
    ((∃ fault, table.select capability = .error (.invalidDescriptor fault)) ↔
      table.SharesThreshold) ∧
    (¬table.SharesThreshold →
      (table.select capability = .error (.invalidVariant capability) ↔
        ∀ entry ∈ table.entries, capability < entry.2.minToolsVersion)) ∧
    (¬table.SharesThreshold → (∃ entry ∈ table.entries, entry.2.minToolsVersion ≤ capability) →
      ∃ variant, table.select capability = .ok variant ∧
        table.IsHighest capability (variant.name, variant.spec) ∧
        (∀ entry, table.IsHighest capability entry → entry = (variant.name, variant.spec)) ∧
        (table.reachedNames capability).getLast? = some variant.name) ∧
    table.names.Perm table.keys ∧
    (table.names.Pairwise fun a b =>
      ∀ low ∈ table.threshold? a, ∀ high ∈ table.threshold? b, low ≤ high) ∧
    ∀ higher, capability ≤ higher → ∀ variant, table.select capability = .ok variant →
      ∃ variant', table.select higher = .ok variant' ∧
        variant.spec.minToolsVersion ≤ variant'.spec.minToolsVersion := by
  rw [sharesThreshold_iff, not_not]
  refine ⟨select_eq_invalidDescriptor_iff hsome, fun hdistinct => ?_, fun hdistinct => ?_,
    names_perm, pairwise_names, ?_⟩
  · have hrefused : (∃ named, table.select capability = .error (.invalidVariant named)) ↔
        ∀ entry ∈ table.entries, capability < entry.2.minToolsVersion := by
      rw [select_eq_invalidVariant_iff, thresholds, List.forall_mem_map]
      exact ⟨fun h => h.2.2, fun h => ⟨hsome, hdistinct, h⟩⟩
    refine ⟨fun h => hrefused.1 ⟨_, h⟩, fun h => ?_⟩
    obtain ⟨named, herror⟩ := hrefused.2 h
    rw [herror, eq_of_select_eq_invalidVariant herror]
  · rintro ⟨entry, hmem, hreached⟩
    obtain ⟨⟨name, spec⟩, hbest⟩ := exists_best? hmem hreached
    have hhighest := isHighest_of_best? hbest
    exact ⟨⟨name, spec⟩, (select_eq_ok_iff hsome).2 ⟨hdistinct, hhighest⟩, hhighest,
      fun other => hhighest.unique hdistinct, getLast?_reachedNames hdistinct hhighest⟩
  · intro higher hle variant hselect
    obtain ⟨hdistinct, hhighest⟩ := (select_eq_ok_iff hsome).1 hselect
    have hreached := Version.le_trans hhighest.reached hle
    obtain ⟨⟨name, spec⟩, hbest⟩ := exists_best? hhighest.declared hreached
    have hhigher := isHighest_of_best? hbest
    exact ⟨⟨name, spec⟩, (select_eq_ok_iff hsome).2 ⟨hdistinct, hhigher⟩,
      hhigher.highest _ hhighest.declared hreached⟩

/-- Three variants whose names stand in another order than their thresholds. -/
def releases : VariantTable where
  entries := [("current", { minToolsVersion := ⟨5, 9, 0⟩ }),
    ("legacy", { minToolsVersion := ⟨5, 5, 0⟩ }), ("nightly", { minToolsVersion := ⟨6, 1, 0⟩ })]
  ascending := by decide

/-- Between the second and the third threshold the second one applies, and a later tools version
    does not go back behind it. -/
theorem select_highest_reached_releases :
    releases.names = ["legacy", "current", "nightly"] ∧
    (∃ variant, releases.select ⟨5, 10, 0⟩ = .ok variant ∧ variant.name = "current" ∧
      releases.IsHighest ⟨5, 10, 0⟩ (variant.name, variant.spec)) ∧
    ∃ variant, releases.select ⟨7, 0, 0⟩ = .ok variant ∧
      (⟨5, 9, 0⟩ : Version) ≤ variant.spec.minToolsVersion := by
  have hdistinct : ¬releases.SharesThreshold := by
    rw [sharesThreshold_iff, not_not]
    decide
  obtain ⟨-, -, hselected, -, -, hhigher⟩ := select_highest_reached
    (by decide : releases.entries ≠ []) ⟨5, 10, 0⟩
  obtain ⟨variant, hselect, hhighest, -, hlast⟩ :=
    hselected hdistinct ⟨("current", { minToolsVersion := ⟨5, 9, 0⟩ }), by decide, by decide⟩
  have hreached : (releases.reachedNames ⟨5, 10, 0⟩).getLast? = some "current" := by decide
  have hname : variant.name = "current" := Option.some.inj (hlast.symm.trans hreached)
  obtain ⟨later, hlater, hle⟩ := hhigher ⟨7, 0, 0⟩ (by decide) variant hselect
  have hcurrent : releases.threshold? variant.name = some ⟨5, 9, 0⟩ := by
    rw [hname]
    decide
  rw [threshold?_of_mem hhighest.declared] at hcurrent
  rw [Option.some.inj hcurrent] at hle
  exact ⟨by decide, ⟨variant, hselect, hname, hhighest⟩, later, hlater, hle⟩

end VariantTable

end PackagePlan
