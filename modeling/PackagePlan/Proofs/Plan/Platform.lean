/-
  The platform gate. A plan is made for the variant that is meant for the tools version, and only
  on a platform that this variant supports. Whether the gate refuses is settled before anything is
  asked of the targets: two descriptions with one table of variants, of which a variant can be
  applied to both, are refused with the same error. Main statement: `resolve_supported`.
-/
import PackagePlan.Proofs.Constraints
import PackagePlan.Proofs.Plan.Ownership
import PackagePlan.Proofs.Plan.States

namespace PackagePlan

/-- The errors of the platform gate. -/
def BuildError.isOfPlatform : BuildError → Bool
  | .platformUnsupported .. | .platformUnspecified .. => true
  | _ => false

/-- What the constraints ask of a platform, or of the lack of one. -/
def PlatformConstraints.Supports (c : PlatformConstraints) : Option Platform → Prop
  | none => c.toList = []
  | some platform => ∀ minimum ∈ c.toList,
      minimum.1 = platform.os → minimum.2 ≤ platform.version

/-! ## The gate -/

/-- Only the gate ends in errors of the platform. -/
theorem Stage.Fails.eq_platform {stage : Stage} {error : BuildError} (h : stage.Fails error)
    (hplatform : error.isOfPlatform = true) : stage = .platform := by
  cases h with
  | unsupported _ _ => rfl
  | unspecified _ _ => rfl
  | files hfiles => cases hfiles <;> cases hplatform
  | _ => cases hplatform

namespace Descriptor

variable {descriptor : Descriptor} {platform : Option Platform}

theorem not_refuses_iff : ¬descriptor.Refuses platform ↔ descriptor.platforms.Supports platform := by
  cases platform with
  | none => exact Decidable.not_not
  | some platform =>
    unfold Refuses PlatformConstraints.Supports
    simp only [PlatformConstraints.minimum?_eq_some_iff]
    constructor
    · intro h minimum hminimum hos
      rw [← Version.not_lt]
      intro hlt
      exact h ⟨minimum.2, hos ▸ hminimum, hlt⟩
    · intro h hrefused
      obtain ⟨minimum, hminimum, hlt⟩ := hrefused
      exact Version.not_lt.2 (h _ hminimum rfl) hlt

/-- The gate looks at nothing but the chosen variant. -/
theorem checkPlatform_congr {other : Descriptor} (h : other.variant = descriptor.variant) :
    other.checkPlatform platform = descriptor.checkPlatform platform := by
  unfold checkPlatform platforms
  rw [h]

end Descriptor

namespace PackageDescription

variable {description : PackageDescription} {descriptor : Descriptor} {tree : Tree} {root : Path}
  {schedule : Schedule} {toolsVersion : Version} {platform : Option Platform}

theorem variant_of_descriptorFor (h : description.descriptorFor toolsVersion = .ok descriptor) :
    description.select toolsVersion = .ok descriptor.variant := by
  obtain ⟨variant, hselect, hmaterialize⟩ := descriptorFor_eq_ok h
  obtain ⟨_, -, rfl⟩ := materialize_eq_ok hmaterialize
  exact hselect

/-- An error of the platform tells that the gate refused, and nothing else. -/
theorem resolve_eq_platform_error_iff {error : BuildError} (hplatform : error.isOfPlatform = true) :
    description.resolve tree root schedule toolsVersion platform = .error error ↔
      ∃ descriptor, description.descriptorFor toolsVersion = .ok descriptor ∧
        descriptor.checkPlatform platform = .error error := by
  have hstage : ∀ stage : Stage, stage.Fails error → stage = .platform :=
    fun _ hfails => hfails.eq_platform hplatform
  have hfiles : ¬SourceSet.Failure error := fun hfailure => nomatch hstage _ (.files hfailure)
  rw [resolve_eq_error_iff hfiles]
  unfold checked
  rw [Outcome.bind_eq_error]
  constructor
  · intro h
    rcases h with h | ⟨descriptor, hdescriptor, h⟩
    · unfold descriptorFor at h
      rcases Outcome.bind_eq_error.1 h with h | ⟨_, -, h⟩
      · exact nomatch hstage _ (VariantTable.select_error h)
      · exact nomatch hstage _ (materialize_error h)
    · refine ⟨descriptor, hdescriptor, ?_⟩
      rcases Outcome.bind_eq_error.1 h with h | ⟨_, -, h⟩
      · exact h
      rcases Outcome.bind_eq_error.1 h with h | ⟨_, -, h⟩
      · obtain ⟨stage, hmem, hfails⟩ := Descriptor.graph_error h
        rw [hstage _ hfails] at hmem
        exact absurd hmem (by decide)
      · cases h
  · intro h
    obtain ⟨descriptor, hdescriptor, hcheck⟩ := h
    exact .inr ⟨descriptor, hdescriptor, Outcome.bind_eq_error.2 (.inl hcheck)⟩

end PackageDescription

/-! ## Two packages with one table of variants

The newer of two variants asks for a platform. It can be applied to two libraries in one directory
and to a target that depends on itself. -/

namespace Commons

def variants : VariantTable := .ofList [
  ("old", { minToolsVersion := ⟨5, 0, 0⟩ }),
  ("new", {
    minToolsVersion := ⟨6, 0, 0⟩
    platforms := ({} : PlatformConstraints).require .macos ⟨13, 0, 0⟩ })]

def staged : Resolver := { description := { name := "commons", targets := graph.targets, variants } }

def tangled : Resolver :=
  { description := {
      name := "tangled"
      targets := [{ name := "knot", dependencies := ["knot"], path := ⟨"knot"⟩ }]
      variants } }

/-- The newer variant applied to the libraries: their graph is the one without variants. -/
def stagedDescriptor : Descriptor :=
  { descriptor with
    variant := ⟨"new", {
      minToolsVersion := ⟨6, 0, 0⟩
      platforms := ({} : PlatformConstraints).require .macos ⟨13, 0, 0⟩ }⟩ }

theorem exists_staged : ∃ plan,
    (staged.resolve tree ⟨6, 1, 0⟩ (some ⟨.macos, ⟨13, 0, 0⟩⟩)).1 = .ok plan := by
  have hdescriptor : staged.description.descriptorFor ⟨6, 1, 0⟩ = .ok stagedDescriptor := by
    decide +kernel
  have hplatform : stagedDescriptor.checkPlatform (some ⟨.macos, ⟨13, 0, 0⟩⟩) = .ok () := by
    decide +kernel
  obtain ⟨plan, hplan, -⟩ := PackageDescription.exists_resolve hdescriptor hplatform
    descriptor_graph resolve_all
  exact ⟨plan, hplan⟩

end Commons

/-! ## The main statement -/

namespace Resolver

/-- A plan that is returned belongs to the variant that is meant for the tools version, and this
    variant supports the platform. What the gate refuses in one description it refuses with the
    same error in every other with the same variants to which the variant can be applied, whatever
    the targets and the files are. -/
theorem resolve_supported :
    (∀ (resolver : Resolver) (tree : Tree) (toolsVersion : Version) (platform : Option Platform)
        (plan : Plan), (resolver.resolve tree toolsVersion platform).1 = .ok plan →
      plan.toolsVersion = toolsVersion ∧ plan.platform = platform ∧
        ∃ variant, resolver.description.variants.Applies toolsVersion variant ∧
          plan.variant = variant.name ∧ variant.spec.platforms.Supports platform) ∧
    ∀ (a b : Resolver) (treeA treeB : Tree) (toolsVersion : Version) (platform : Option Platform)
        (error : BuildError), a.description.variants = b.description.variants →
      (∃ descriptor, b.description.descriptorFor toolsVersion = .ok descriptor) →
      error.isOfPlatform = true → (a.resolve treeA toolsVersion platform).1 = .error error →
        (b.resolve treeB toolsVersion platform).1 = .error error := by
  constructor
  · intro resolver tree toolsVersion platform plan h
    obtain ⟨descriptor, graph, hdescriptor, hplatform, -, hplan⟩ :=
      PackageDescription.resolve_eq_ok.1 h
    obtain ⟨_, _, _, _, _, _, -, -, -, -, -, rfl⟩ := Descriptor.plan_eq_ok hplan
    have hselect := PackageDescription.variant_of_descriptorFor hdescriptor
    refine ⟨rfl, rfl, descriptor.variant, VariantTable.applies_of_select hselect, rfl, ?_⟩
    exact Descriptor.not_refuses_iff.1 (Descriptor.checkPlatform_eq_ok_iff.1 hplatform)
  · intro a b treeA treeB toolsVersion platform error hvariants hmaterialize hkind h
    obtain ⟨descriptorB, hdescriptorB⟩ := hmaterialize
    obtain ⟨descriptorA, hdescriptorA, hrefused⟩ :=
      (PackageDescription.resolve_eq_platform_error_iff hkind).1 h
    have hselectA := PackageDescription.variant_of_descriptorFor hdescriptorA
    have hselectB := PackageDescription.variant_of_descriptorFor hdescriptorB
    have hsame : descriptorB.variant = descriptorA.variant := by
      unfold PackageDescription.select at hselectA hselectB
      rw [← hvariants, hselectA] at hselectB
      exact (Except.ok.inj hselectB).symm
    refine (PackageDescription.resolve_eq_platform_error_iff hkind).2 ⟨descriptorB, hdescriptorB, ?_⟩
    rw [Descriptor.checkPlatform_congr hsame, hrefused]

/-- A platform that is just new enough, and one that is too old for libraries and knot alike. -/
theorem resolve_supported_commons :
    (∃ plan, (Commons.staged.resolve Commons.tree ⟨6, 1, 0⟩ (some ⟨.macos, ⟨13, 0, 0⟩⟩)).1 =
        .ok plan ∧
      ∃ variant, Commons.variants.Applies ⟨6, 1, 0⟩ variant ∧ plan.variant = variant.name ∧
        variant.spec.platforms.Supports (some ⟨.macos, ⟨13, 0, 0⟩⟩)) ∧
    (Commons.staged.resolve Commons.tree ⟨6, 1, 0⟩ (some ⟨.macos, ⟨12, 9, 0⟩⟩)).1 =
      .error (.platformUnsupported ⟨.macos, ⟨12, 9, 0⟩⟩ ⟨13, 0, 0⟩) ∧
    (Commons.tangled.resolve {} ⟨6, 1, 0⟩ (some ⟨.macos, ⟨12, 9, 0⟩⟩)).1 =
      .error (.platformUnsupported ⟨.macos, ⟨12, 9, 0⟩⟩ ⟨13, 0, 0⟩) := by
  obtain ⟨plan, hplan⟩ := Commons.exists_staged
  obtain ⟨-, -, hvariant⟩ := resolve_supported.1 _ _ _ _ plan hplan
  have hrefused : (Commons.staged.resolve Commons.tree ⟨6, 1, 0⟩ (some ⟨.macos, ⟨12, 9, 0⟩⟩)).1 =
      .error (.platformUnsupported ⟨.macos, ⟨12, 9, 0⟩⟩ ⟨13, 0, 0⟩) :=
    (PackageDescription.resolve_eq_platform_error_iff rfl).2
      ⟨Commons.stagedDescriptor, by decide +kernel, by decide +kernel⟩
  have hmaterialize : ∃ descriptor,
      Commons.tangled.description.descriptorFor ⟨6, 1, 0⟩ = .ok descriptor :=
    Outcome.isOk_iff.1 (by decide +kernel)
  exact ⟨⟨plan, hplan, hvariant⟩, hrefused,
    resolve_supported.2 Commons.staged Commons.tangled Commons.tree {} _ _ _ rfl hmaterialize rfl
      hrefused⟩

end Resolver

end PackagePlan
