/-
  Applying a variant to a description. The extra exclusions change the exclusion lists and nothing
  else of the targets (`excludeAll_map`), so the names and the dependencies of a descriptor are
  those that were declared (`materialize_dependsOn`, `materialize_names`).
-/
import PackagePlan.Description.Basic
import PackagePlan.Proofs.Graph.Dependency
import PackagePlan.Proofs.Outcome

namespace PackagePlan

open Target (DependsOn Needs Resolved)

variable {targets targets' : List Target}

/-- What does not look at the exclusions of a target is the same before and after. -/
theorem excludeIn_map {α : Type} (f : Target → α)
    (hf : ∀ target patterns, f { target with exclude := patterns } = f target)
    {name : String} {patterns : List String}
    (h : excludeIn name patterns targets = some targets') : targets'.map f = targets.map f := by
  induction targets generalizing targets' with
  | nil => cases h
  | cons target rest ih =>
    rw [excludeIn] at h
    split at h
    · obtain rfl := Option.some.inj h
      rw [List.map_cons, List.map_cons, hf]
    · obtain ⟨rest', hrest, rfl⟩ := Option.map_eq_some_iff.1 h
      rw [List.map_cons, List.map_cons, ih hrest]

theorem excludeAll_map {α : Type} (f : Target → α)
    (hf : ∀ target patterns, f { target with exclude := patterns } = f target)
    {variant : String} {extra : List (String × List String)}
    (h : excludeAll variant targets extra = .ok targets') : targets'.map f = targets.map f := by
  induction extra generalizing targets with
  | nil => rw [Except.ok.inj h]
  | cons entry rest ih =>
    rw [excludeAll] at h
    split at h
    · next hentry => rw [ih h, excludeIn_map f hf hentry]
    · cases h

/-- The dependency relation only looks at names and dependency lists. -/
theorem Target.dependsOn_congr (h : targets'.map Target.edges = targets.map Target.edges) :
    DependsOn targets' = DependsOn targets := by
  have hedge : ∀ (list : List Target) (a b : String), DependsOn list a b ↔
      ∃ edges ∈ list.map Target.edges, edges.1 = a ∧ b ∈ edges.2 := by
    intro list a b
    unfold DependsOn Target.edges
    simp only [List.mem_map, exists_exists_and_eq_and]
  funext a b
  rw [eq_iff_iff, hedge, hedge, h]

namespace PackageDescription

variable {description : PackageDescription} {variant : Variant} {descriptor : Descriptor}

/-- What a descriptor is made of. -/
theorem materialize_eq_ok_iff :
    description.materialize variant = .ok descriptor ↔
      ∃ targets, excludeAll variant.name description.targets variant.spec.extraExclude.entries =
          .ok targets ∧
        description.firstHiddenProduct? variant = none ∧
        descriptor = {
          package := description.name
          variant
          cLanguageStandard := description.cLanguageStandard
          targets
          products := description.products.filter fun p =>
            variant.spec.products.exposes p.name } := by
  unfold materialize
  cases excludeAll variant.name description.targets variant.spec.extraExclude.entries with
  | error error => simp
  | ok targets =>
    cases description.firstHiddenProduct? variant with
    | some name => simp
    | none => simp [eq_comm]

theorem materialize_eq_ok (h : description.materialize variant = .ok descriptor) :
    ∃ targets, excludeAll variant.name description.targets variant.spec.extraExclude.entries =
        .ok targets ∧
      descriptor = {
        package := description.name
        variant
        cLanguageStandard := description.cLanguageStandard
        targets
        products := description.products.filter fun p =>
          variant.spec.products.exposes p.name } := by
  obtain ⟨targets, htargets, -, hdescriptor⟩ := materialize_eq_ok_iff.1 h
  exact ⟨targets, htargets, hdescriptor⟩

/-- The targets of a descriptor are those that were declared, their exclusions apart. -/
theorem materialize_map {α : Type} (f : Target → α)
    (hf : ∀ target patterns, f { target with exclude := patterns } = f target)
    (h : description.materialize variant = .ok descriptor) :
    descriptor.targets.map f = description.targets.map f := by
  obtain ⟨targets, htargets, rfl⟩ := materialize_eq_ok h
  exact excludeAll_map f hf htargets

theorem materialize_names (h : description.materialize variant = .ok descriptor) :
    Target.names descriptor.targets = Target.names description.targets :=
  materialize_map (·.name) (fun _ _ => rfl) h

theorem materialize_dependsOn (h : description.materialize variant = .ok descriptor) :
    DependsOn descriptor.targets = DependsOn description.targets :=
  Target.dependsOn_congr (materialize_map Target.edges (fun _ _ => rfl) h)

theorem materialize_needs (h : description.materialize variant = .ok descriptor) :
    Needs descriptor.targets = Needs description.targets := by
  unfold Needs
  rw [materialize_dependsOn h]

theorem materialize_resolved (h : description.materialize variant = .ok descriptor) :
    Resolved descriptor.targets ↔ Resolved description.targets := by
  rw [Target.resolved_iff, Target.resolved_iff, materialize_dependsOn h, materialize_names h]

theorem materialize_valid (h : description.materialize variant = .ok descriptor) :
    (∀ target ∈ descriptor.targets, target.isValid = true) ↔
      ∀ target ∈ description.targets, target.isValid = true := by
  have hall : ∀ targets : List Target, (∀ target ∈ targets, target.isValid = true) ↔
      ∀ valid ∈ targets.map Target.isValid, valid = true := by
    intro targets
    rw [List.forall_mem_map]
  rw [hall, hall, materialize_map Target.isValid (fun _ _ => rfl) h]

/-- A descriptor is the chosen variant applied. -/
theorem descriptorFor_eq_ok {capability : Version}
    (h : description.descriptorFor capability = .ok descriptor) :
    ∃ variant, description.select capability = .ok variant ∧
      description.materialize variant = .ok descriptor := by
  unfold descriptorFor at h
  exact Outcome.bind_eq_ok.1 h

end PackageDescription

end PackagePlan
