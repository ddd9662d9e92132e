/-
  Added exclusion patterns, from the descriptions to the descriptors. The extra exclusions of a
  variant reach each target under its name (`materialize_targets`). Where one description adds
  patterns of one target to another description, in the list of the target or in the variant, the
  descriptors therefore have the same targets but that one, and that one with more patterns
  (`descriptorFor_gains`).
-/
import PackagePlan.Proofs.Description.Application
import PackagePlan.Proofs.Source.Narrowing
import PackagePlan.Proofs.Variant

namespace PackagePlan

/-! ## Every target with its own patterns -/

namespace PackageDescription

variable {description : PackageDescription} {variant : Variant} {descriptor : Descriptor}

/-- The targets of a descriptor are those that were declared, each with the patterns that the
    variant has under its name. -/
theorem materialize_targets (hnodup : (Target.names description.targets).Nodup)
    (h : description.materialize variant = .ok descriptor) :
    descriptor.targets =
      description.targets.map (Target.extended variant.spec.extraExclude.entries) := by
  refine List.ext_getElem? fun i => ?_
  rw [getElem?_materialize h, List.getElem?_map]
  exact Option.map_congr fun target htarget => if_neg (not_mem_namesBefore hnodup htarget)

end PackageDescription

/-! ## Two descriptions -/

/-- The two targets differ at most in their patterns, and that only under the given name. -/
structure Target.SameBut (owner : String) (base more : Target) : Prop where
  record : more = { base with exclude := more.exclude }
  others : base.name ≠ owner → more = base

/-- The two settings differ at most in the patterns for the target of the given name. -/
structure VariantSpec.SameBut (owner : String) (base more : VariantSpec) : Prop where
  minToolsVersion : more.minToolsVersion = base.minToolsVersion
  products : more.products = base.products
  platforms : more.platforms = base.platforms
  extraExclude : ∀ name, name ≠ owner → more.extraExclude.get? name = base.extraExclude.get? name

/-- The two tables have variants under the same names, with settings that differ at most so. -/
def VariantTable.SameBut (owner : String) (base more : VariantTable) : Prop :=
  ∀ name, Option.Rel (VariantSpec.SameBut owner) (base.get? name) (more.get? name)

namespace PackageDescription

/-- A pattern is declared of a target: by the target itself, or by the variant for a tools
    version. -/
inductive Declares (description : PackageDescription) (toolsVersion : Version)
    (owner pattern : String) : Prop
  | own {target : Target} (declared : target ∈ description.targets) (name : target.name = owner)
      (mem : pattern ∈ target.exclude)
  | extra {variant : Variant} (selected : description.select toolsVersion = .ok variant)
      {patterns : List String} (entry : variant.spec.extraExclude.get? owner = some patterns)
      (mem : pattern ∈ patterns)

/-- The second description has further patterns of one target, which may stand in its own list or
    with the variant for the tools version, and is otherwise the first one. -/
structure AddsExclusions (owner : String) (added : List String) (toolsVersion : Version)
    (base more : PackageDescription) : Prop where
  name : more.name = base.name
  cLanguageStandard : more.cLanguageStandard = base.cLanguageStandard
  products : more.products = base.products
  targets : List.Forall₂ (Target.SameBut owner) base.targets more.targets
  variants : base.variants.SameBut owner more.variants
  patterns : ∀ pattern, more.Declares toolsVersion owner pattern ↔
    base.Declares toolsVersion owner pattern ∨ pattern ∈ added

end PackageDescription

/-! ## The same variant -/

namespace VariantSpec.SameBut

variable {owner : String} {base more : VariantSpec}

theorem refl (owner : String) (spec : VariantSpec) : spec.SameBut owner spec :=
  ⟨rfl, rfl, rfl, fun _ _ => rfl⟩

theorem symm (h : base.SameBut owner more) : more.SameBut owner base :=
  ⟨h.minToolsVersion.symm, h.products.symm, h.platforms.symm,
    fun name hname => (h.extraExclude name hname).symm⟩

/-- Other patterns for the target in the settings. -/
theorem insert (owner : String) (spec : VariantSpec) (patterns : List String) :
    spec.SameBut owner
      { spec with extraExclude := spec.extraExclude.insert owner patterns } where
  minToolsVersion := rfl
  products := rfl
  platforms := rfl
  extraExclude name hname := by rw [Catalog.get?_insert, if_neg hname]

end VariantSpec.SameBut

namespace VariantTable

variable {owner : String} {table other : VariantTable}

theorem SameBut.symm (h : table.SameBut owner other) : other.SameBut owner table := fun name =>
  Outcome.optionRel_symm VariantSpec.SameBut.symm (h name)

/-- Such settings in the place of those of one variant. -/
theorem SameBut.insert {name : String} {spec spec' : VariantSpec}
    (hget : table.get? name = some spec) (h : spec.SameBut owner spec') :
    table.SameBut owner (Catalog.insert table name spec') := by
  intro other
  rw [Catalog.get?_insert]
  split
  · next hname =>
    rw [hname, hget]
    exact .some h
  · cases table.get? other with
    | none => exact .none
    | some kept => exact .some (.refl owner kept)

theorem SameBut.exists_mem (h : table.SameBut owner other) {name : String} {spec : VariantSpec}
    (hmem : (name, spec) ∈ table.entries) :
    ∃ spec', (name, spec') ∈ other.entries ∧ spec.SameBut owner spec' := by
  have hrel := h name
  rw [Catalog.get?_eq_some_iff.2 hmem] at hrel
  cases hget : other.get? name with
  | none =>
    rw [hget] at hrel
    cases hrel
  | some spec' =>
    rw [hget] at hrel
    cases hrel with
    | some hsame => exact ⟨spec', Catalog.get?_eq_some_iff.1 hget, hsame⟩

/-- Where the settings differ in patterns alone, the variant of the same name applies. -/
theorem SameBut.applies (h : table.SameBut owner other) {capability : Version}
    {variant variant' : Variant} (happlies : table.Applies capability variant)
    (happlies' : other.Applies capability variant') :
    variant'.name = variant.name ∧ variant.spec.SameBut owner variant'.spec := by
  cases happlies with
  | implicit hempty =>
    cases happlies' with
    | implicit => exact ⟨rfl, .refl owner _⟩
    | highest hdeclared' =>
      obtain ⟨_, hdeclared, -⟩ := h.symm.exists_mem hdeclared'
      rw [hempty] at hdeclared
      cases hdeclared
  | @highest name spec hdeclared hreached habove =>
    obtain ⟨spec', hother, hsame⟩ := h.exists_mem hdeclared
    cases happlies' with
    | implicit hempty' =>
      rw [hempty'] at hother
      cases hother
    | @highest name' chosen hdeclared' hreached' habove' =>
      rcases habove' (name, spec') hother (hsame.minToolsVersion ▸ hreached) with heq | hlt
      · obtain ⟨rfl, rfl⟩ := Prod.mk.inj heq
        exact ⟨rfl, hsame⟩
      · -- The chosen one stands in the first table too, where its threshold is not higher.
        obtain ⟨level, hlevel, hback⟩ := h.symm.exists_mem hdeclared'
        have hle : level.minToolsVersion ≤ spec.minToolsVersion := by
          rcases habove (name', level) hlevel (hback.minToolsVersion ▸ hreached') with heq | hbelow
          · obtain ⟨rfl, rfl⟩ := Prod.mk.inj heq
            exact Version.le_refl _
          · exact Version.le_of_lt hbelow
        rw [hback.minToolsVersion, ← hsame.minToolsVersion] at hle
        exact absurd hlt (Version.not_lt.2 hle)

end VariantTable

/-! ## Two descriptors -/

/-- The second target is the first one, with further patterns if it has the given name. -/
structure Target.Gains (owner : String) (added : List String) (base more : Target) : Prop
    extends Target.SameBut owner base more where
  exclude : base.name = owner → Adds added base.exclude more.exclude

/-- The second descriptor is the first one, with further patterns of one target. -/
structure Descriptor.Gains (owner : String) (added : List String) (base more : Descriptor) :
    Prop where
  package : more.package = base.package
  variant : more.variant.name = base.variant.name
  cLanguageStandard : more.cLanguageStandard = base.cLanguageStandard
  products : more.products = base.products
  targets : List.Forall₂ (Target.Gains owner added) base.targets more.targets

theorem Target.SameBut.name {owner : String} {base more : Target} (h : base.SameBut owner more) :
    more.name = base.name := by
  rw [h.record]

namespace PackageDescription

variable {description : PackageDescription} {variant : Variant} {toolsVersion : Version}

/-- What is declared of a target is what its descriptor takes out. -/
theorem declares_iff (hnodup : (Target.names description.targets).Nodup)
    (hselect : description.select toolsVersion = .ok variant) {target : Target}
    (htarget : target ∈ description.targets) (pattern : String) :
    description.Declares toolsVersion target.name pattern ↔
      pattern ∈ (target.extended variant.spec.extraExclude.entries).exclude := by
  rw [Target.extended, mem_addPatterns, mem_extraIn]
  constructor
  · rintro (⟨hdeclared, hname, hmem⟩ | ⟨hselected, hentry, hmem⟩)
    · obtain rfl := Target.eq_of_name_eq hnodup hdeclared htarget hname
      exact .inl hmem
    · obtain rfl := Except.ok.inj (hselected.symm.trans hselect)
      exact .inr ⟨_, hentry, hmem⟩
  · rintro (hmem | ⟨patterns, hentry, hmem⟩)
    · exact .own htarget rfl hmem
    · exact .extra hselect hentry hmem

theorem AddsExclusions.names {owner : String} {added : List String} {base more : PackageDescription}
    (h : base.AddsExclusions owner added toolsVersion more) :
    Target.names more.targets = Target.names base.targets := by
  have hall := h.targets
  unfold Target.names
  generalize base.targets = list, more.targets = others at hall
  induction hall with
  | nil => rfl
  | cons hsame _ ih => rw [List.map_cons, List.map_cons, ih, hsame.name]

/-- A target of the first descriptor, and the one that stands for it in the second. -/
theorem AddsExclusions.extended_gains {owner : String} {added : List String}
    {base more : PackageDescription} (hadds : base.AddsExclusions owner added toolsVersion more)
    (hnodup : (Target.names base.targets).Nodup) {variant variant' : Variant}
    (hselect : base.select toolsVersion = .ok variant)
    (hselect' : more.select toolsVersion = .ok variant')
    (hsame : variant.spec.SameBut owner variant'.spec) {target other : Target}
    (htarget : target ∈ base.targets) (hother : other ∈ more.targets)
    (hdiffer : target.SameBut owner other) :
    (target.extended variant.spec.extraExclude.entries).Gains owner added
      (other.extended variant'.spec.extraExclude.entries) := by
  have hbase := declares_iff hnodup hselect htarget
  have hmore := declares_iff (hadds.names ▸ hnodup) hselect' hother
  refine ⟨⟨by rw [Target.extended, Target.extended, hdiffer.record], fun hne => ?_⟩, ?_⟩
  · have hextra : extraIn variant'.spec.extraExclude.entries target.name =
        extraIn variant.spec.extraExclude.entries target.name := by
      rw [extraIn_entries, extraIn_entries, hsame.extraExclude target.name hne]
    rw [hdiffer.others hne, Target.extended, Target.extended, hextra]
  · intro (howner : target.name = owner) pattern
    rw [hdiffer.name] at hmore
    rw [← hbase, ← hmore, howner, hadds.patterns]

/-- Patterns that are added to a description are added to the target of the descriptor. -/
theorem descriptorFor_gains {owner : String} {added : List String} {base more : PackageDescription}
    (hadds : base.AddsExclusions owner added toolsVersion more)
    (hnodup : (Target.names base.targets).Nodup) {descriptor descriptor' : Descriptor}
    (h : base.descriptorFor toolsVersion = .ok descriptor)
    (h' : more.descriptorFor toolsVersion = .ok descriptor') :
    descriptor.Gains owner added descriptor' := by
  obtain ⟨variant, hselect, hmaterialize⟩ := descriptorFor_eq_ok h
  obtain ⟨variant', hselect', hmaterialize'⟩ := descriptorFor_eq_ok h'
  obtain ⟨hname, hsame⟩ := hadds.variants.applies (VariantTable.applies_of_select hselect)
    (VariantTable.applies_of_select hselect')
  have htargets := materialize_targets hnodup hmaterialize
  have htargets' := materialize_targets (hadds.names ▸ hnodup) hmaterialize'
  obtain ⟨_, -, rfl⟩ := materialize_eq_ok hmaterialize
  obtain ⟨_, -, rfl⟩ := materialize_eq_ok hmaterialize'
  exact
    { package := hadds.name
      variant := hname
      cLanguageStandard := hadds.cLanguageStandard
      products := by rw [hadds.products, hsame.products]
      targets := by
        rw [htargets, htargets', List.forall₂_map_left_iff, List.forall₂_map_right_iff]
        exact Outcome.forall₂_imp_of_mem (fun _ htarget _ hother =>
          hadds.extended_gains hnodup hselect hselect' hsame htarget hother) hadds.targets }

end PackageDescription

end PackagePlan
