/-
  The lookups of a resolution. Every stage that asks for a target by name asks for a declared one,
  and every stage that asks for the source set of a target finds it, because the waves have gone
  through all targets. `FindsTargets` says of a computation that no such lookup fails; a stage that
  keeps to the table of errors has the property, and it is carried from stage to stage.
-/
import PackagePlan.Proofs.Description.Materialize
import PackagePlan.Proofs.Graph.Closure
import PackagePlan.Proofs.Plan.Errors

namespace PackagePlan

/-- The computation does not end in a target that was not found. -/
def FindsTargets {α : Type} (x : Except BuildError α) : Prop :=
  ∀ name, x ≠ .error (.targetNotFound name)

namespace FindsTargets

variable {α β : Type}

theorem of_fails {x : Except BuildError α}
    (h : ∀ error, x = .error error → ∃ stage : Stage, stage.Fails error) : FindsTargets x := by
  intro name herror
  obtain ⟨stage, hfails⟩ := h _ herror
  cases hfails with
  | files h => cases h

theorem bind {x : Except BuildError α} {f : α → Except BuildError β} (hx : FindsTargets x)
    (hf : ∀ a, x = .ok a → FindsTargets (f a)) : FindsTargets (x >>= f) := by
  intro name herror
  rcases Outcome.bind_eq_error.1 herror with herror | ⟨a, ha, herror⟩
  · exact hx name herror
  · exact hf a ha name herror

end FindsTargets

theorem PackageDescription.finds_descriptorFor (description : PackageDescription)
    (capability : Version) : FindsTargets (description.descriptorFor capability) :=
  .bind (.of_fails fun _ h => ⟨.selection, VariantTable.select_error h⟩) fun _ _ =>
    .of_fails fun _ h => ⟨.application, materialize_error h⟩

theorem Descriptor.finds_checkPlatform (descriptor : Descriptor) (platform : Option Platform) :
    FindsTargets (descriptor.checkPlatform platform) :=
  .of_fails fun _ h => ⟨.platform, checkPlatform_error h⟩

theorem Descriptor.finds_graph (descriptor : Descriptor) : FindsTargets descriptor.graph :=
  .of_fails fun _ h => (graph_error h).imp fun _ => And.right

end PackagePlan
