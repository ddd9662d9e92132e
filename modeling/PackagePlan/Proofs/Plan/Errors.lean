/-
  The errors of a resolution, stage by stage. `Stage.Fails` is the table of what each stage can end
  in; one lemma for each stage sees to it that the stage keeps to the table. What is said later of
  errors, of the states they lead to or of what they depend on, is read off the table.
-/
import PackagePlan.Plan.State
import PackagePlan.Proofs.Description.Application
import PackagePlan.Proofs.Graph.Order
import PackagePlan.Proofs.Source.Resolution
import PackagePlan.Proofs.Variant

namespace PackagePlan

/-- The stages of a resolution, in their order. -/
inductive Stage where
  | selection
  | application
  | platform
  | targets
  | dependencies
  | products
  | roots
  | sources
  deriving DecidableEq

/-- The errors that each stage can end in. -/
inductive Stage.Fails : Stage → BuildError → Prop where
  | sharedThreshold (first second : String) (threshold : Version) :
      Fails .selection (.invalidDescriptor (.sharedThreshold first second threshold))
  | belowAll (capability : Version) : Fails .selection (.invalidVariant capability)
  | unmatched (name : String) (referrer : Referrer) :
      Fails .application (.unresolvedReference name referrer)
  | unsupported (platform : Platform) (minimum : Version) :
      Fails .platform (.platformUnsupported platform minimum)
  | unspecified (variant : String) (constrained : List (OsFamily × Version)) :
      Fails .platform (.platformUnspecified variant constrained)
  | invalidTarget (fault : TargetFault) : Fails .targets (.invalidTarget fault)
  | duplicateTarget (name : String) : Fails .targets (.duplicateTarget name)
  | undeclared (name owner : String) :
      Fails .dependencies (.unresolvedReference name (.target owner))
  | cycle (names : List String) : Fails .dependencies (.cycleDetected names)
  | invalidProduct (fault : DescriptionFault) : Fails .products (.invalidDescriptor fault)
  | undeclaredMember (name product : String) :
      Fails .products (.unresolvedReference name (.product product))
  | overlap (first second : String) (path : Path) :
      Fails .roots (.overlappingSourceRoots first second path)
  | files {error : BuildError} (h : SourceSet.Failure error) : Fails .sources error

open Stage (Fails)

variable {error : BuildError}

/-- A check ends in the first fault that it finds. -/
theorem fault_eq_error {fault? : Option BuildError} :
    (match fault? with
      | some error => Except.error error
      | none => .ok ()) = .error error ↔ fault? = some error := by
  cases fault? <;> simp

/-! ## Choosing and applying a variant -/

theorem VariantTable.select_error {table : VariantTable} {capability : Version}
    (h : table.select capability = .error error) : Fails .selection error := by
  unfold select at h
  split at h
  · cases h
  rcases Outcome.bind_eq_error.1 h with h | ⟨-, -, h⟩
  · obtain ⟨_, _, _, rfl⟩ := check_error h
    exact .sharedThreshold ..
  · split at h
    · cases h
    · obtain rfl := Except.error.inj h
      exact .belowAll _

theorem PackageDescription.materialize_error {description : PackageDescription} {variant : Variant}
    (h : description.materialize variant = .error error) : Fails .application error := by
  obtain ⟨name, referrer, rfl, -⟩ := misses_of_materialize_error h
  exact .unmatched name referrer

theorem Descriptor.checkPlatform_error {descriptor : Descriptor} {platform : Option Platform}
    (h : descriptor.checkPlatform platform = .error error) : Fails .platform error := by
  unfold checkPlatform at h
  split at h
  · unfold PlatformConstraints.check at h
    split at h
    · split at h
      · obtain rfl := Except.error.inj h
        exact .unsupported ..
      · cases h
    · cases h
  · split at h
    · cases h
    · obtain rfl := Except.error.inj h
      exact .unspecified ..

/-! ## Checking the graph -/

namespace Graph

variable {graph : Graph}

theorem firstFault?_error {seen : List String} {targets : List Target}
    (h : firstFault? seen targets = some error) : Fails .targets error := by
  induction targets generalizing seen with
  | nil => cases h
  | cons target rest ih =>
    rw [firstFault?] at h
    split at h
    · obtain rfl := Option.some.inj h
      exact .invalidTarget _
    · split at h
      · obtain rfl := Option.some.inj h
        exact .duplicateTarget _
      · exact ih h

theorem ofTargets_error {targets : List Target} (h : ofTargets targets = .error error) :
    Fails .targets error := by
  unfold ofTargets at h
  split at h
  · next fault hfault =>
    obtain rfl := Except.error.inj h
    exact firstFault?_error hfault
  · cases h

theorem firstUnresolved?_error {targets : List Target}
    (h : graph.firstUnresolved? targets = some error) :
    ∃ name owner, error = .unresolvedReference name (.target owner) := by
  induction targets with
  | nil => cases h
  | cons target rest ih =>
    rw [firstUnresolved?] at h
    split at h
    · next name _ => exact ⟨name, target.name, (Option.some.inj h).symm⟩
    · exact ih h

theorem check_error (h : graph.check = .error error) : Fails .dependencies error := by
  unfold check at h
  split at h
  · next fault hfault =>
    obtain rfl := Except.error.inj h
    obtain ⟨name, owner, rfl⟩ := firstUnresolved?_error hfault
    exact .undeclared name owner
  · cases buildOrder_error (Outcome.map_eq_error.1 h) with
    | cycle _ => exact .cycle _
    | unknown _ _ => exact .undeclared ..

theorem firstProductFault?_error {seen : List String} {products : List Product}
    (h : graph.firstProductFault? seen products = some error) : Fails .products error := by
  induction products generalizing seen with
  | nil => cases h
  | cons product rest ih =>
    rw [firstProductFault?] at h
    split at h
    · obtain rfl := Option.some.inj h
      exact .invalidProduct _
    · split at h
      · obtain rfl := Option.some.inj h
        exact .invalidProduct _
      · split at h
        · obtain rfl := Option.some.inj h
          exact .undeclaredMember ..
        · exact ih h

theorem checkProducts_error {products : List Product}
    (h : graph.checkProducts products = .error error) : Fails .products error := by
  unfold checkProducts at h
  exact firstProductFault?_error (fault_eq_error.1 h)

theorem overlap?_error {first second : Target} (h : overlap? first second = some error) :
    Fails .roots error := by
  unfold overlap? at h
  obtain ⟨path, -, rfl⟩ := Option.map_eq_some_iff.1 h
  exact .overlap ..

theorem firstOverlap?_error {targets : List Target} (h : firstOverlap? targets = some error) :
    Fails .roots error := by
  induction targets with
  | nil => cases h
  | cons target rest ih =>
    rw [firstOverlap?] at h
    split at h
    · next fault hfault =>
      obtain rfl := Option.some.inj h
      obtain ⟨other, -, hother⟩ := List.exists_of_findSome?_eq_some hfault
      exact overlap?_error hother
    · exact ih h

theorem checkRoots_error (h : graph.checkRoots = .error error) : Fails .roots error := by
  unfold checkRoots at h
  exact firstOverlap?_error (fault_eq_error.1 h)

end Graph

theorem Descriptor.graph_error {descriptor : Descriptor} (h : descriptor.graph = .error error) :
    ∃ stage ∈ [Stage.targets, .dependencies, .products, .roots], stage.Fails error := by
  unfold Descriptor.graph at h
  rcases Outcome.bind_eq_error.1 h with h | ⟨graph, -, h⟩
  · exact ⟨.targets, by decide, Graph.ofTargets_error h⟩
  rcases Outcome.bind_eq_error.1 h with h | ⟨_, -, h⟩
  · exact ⟨.dependencies, by decide, Graph.check_error h⟩
  rcases Outcome.bind_eq_error.1 h with h | ⟨_, -, h⟩
  · exact ⟨.products, by decide, Graph.checkProducts_error h⟩
  rcases Outcome.bind_eq_error.1 h with h | ⟨_, -, h⟩
  · exact ⟨.roots, by decide, Graph.checkRoots_error h⟩
  · cases h

end PackagePlan
