/-
  What a pattern takes out, said of components: the paths of which a prefix that is not empty, in
  its shortest spelling, matches the glob. On a path that is itself in the shortest spelling the
  test of the resolution says the same (`covers_ofComponents`).
-/
import PackagePlan.Exclusion
import PackagePlan.Proofs.Path.Prefix
import PackagePlan.Target

namespace PackagePlan

namespace Exclusion

/-- Whether the pattern matches the path or a directory above it. -/
def TakesOut (exclusion : Exclusion) (p : Path) : Prop :=
  ∃ above, above ≠ [] ∧ above <+: p.components ∧
    exclusion.glob.acceptsText (Path.ofComponents above).text = true

theorem takesOut_congr {exclusion : Exclusion} {p q : Path} (h : p.components = q.components) :
    exclusion.TakesOut p ↔ exclusion.TakesOut q := by
  unfold TakesOut
  rw [h]

theorem isEmpty_ofComponents {steps : List Component} (h : ∀ c ∈ steps, c.IsStep) :
    (Path.ofComponents steps).isEmpty = true ↔ steps = [] := by
  constructor
  · intro hempty
    by_contra hsteps
    exact Path.ofComponents_text_ne_empty hsteps h (by simpa [Path.isEmpty] using hempty)
  · rintro rfl
    rfl

theorem covers_ofComponents {exclusion : Exclusion} {steps : List Component}
    (h : ∀ c ∈ steps, c.IsStep) :
    exclusion.covers (Path.ofComponents steps) = true ↔
      exclusion.TakesOut (Path.ofComponents steps) := by
  unfold covers TakesOut
  rw [Path.components_ofComponents h, List.any_eq_true]
  constructor
  · rintro ⟨_, hmem, hmatch⟩
    obtain ⟨above, habove, rfl⟩ := (Path.mem_ancestors h).1 hmem
    obtain ⟨hempty, hglob⟩ := (Bool.and_eq_true _ _).mp hmatch
    refine ⟨above, ?_, habove, hglob⟩
    rintro rfl
    cases hempty
  · rintro ⟨above, hnil, habove, hglob⟩
    have hsteps : ∀ c ∈ above, c.IsStep := fun c hc => h c (habove.subset hc)
    refine ⟨_, (Path.mem_ancestors h).2 ⟨above, habove, rfl⟩, ?_⟩
    rw [Bool.and_eq_true, hglob, Bool.not_eq_true', Bool.eq_false_iff, ne_eq,
      isEmpty_ofComponents hsteps]
    exact ⟨hnil, rfl⟩

end Exclusion

/-- Whether a pattern that the target declares takes the path out. -/
def Target.Excludes (target : Target) (p : Path) : Prop :=
  ∃ text ∈ target.exclude, ∃ exclusion,
    Exclusion.parse target.name text = .ok exclusion ∧ exclusion.TakesOut p

theorem Target.excludes_congr {target : Target} {p q : Path} (h : p.components = q.components) :
    target.Excludes p ↔ target.Excludes q := by
  unfold Target.Excludes
  simp only [Exclusion.takesOut_congr h]

end PackagePlan
