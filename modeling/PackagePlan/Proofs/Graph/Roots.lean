/-
  Source roots that lie in one another. The roots of a target are said by their steps from the
  package root, without `.` and whatever the spelling of the declared paths (`Target.rootSteps`).
  Main statement: the check passes exactly when no root of one target is the beginning of a root of
  another (`checkRoots_eq_ok_iff`), so that no place lies in roots of two targets
  (`not_both_prefix`).
-/
import PackagePlan.Graph.Roots
import PackagePlan.Proofs.Graph.Dependency
import PackagePlan.Proofs.Path.Prefix
import PackagePlan.Proofs.Source.Roots

namespace PackagePlan

/-- The components of a path without its `.` components. -/
def Path.undotted (p : Path) : List Component := p.components.filter (· ≠ .current)

namespace Target

open PackagePlan.Path

/-- The source roots of a target as steps from the package root: those of the target directory
    alone, or followed by those of each declared source. -/
def rootSteps (target : Target) : List (List Component) :=
  if target.sources.isEmpty then [target.path.undotted]
  else target.sources.map fun source => target.path.undotted ++ source.undotted

variable {target : Target}

theorem undotted_eq_inner {p : Path} (h : p.isContained = true) : p.undotted = p.inner :=
  filter_components (isAbsolute_of_isContained h)

/-- The source roots have just these steps. -/
theorem components_sourceRoots (h : target.isValid = true) :
    target.sourceRoots.map Path.components = target.rootSteps := by
  have hsteps : ∀ c ∈ target.path.inner, c.IsStep := fun _ => isStep_of_mem_inner
  have hbase : target.path.normalize = ofComponents target.path.inner :=
    normalize_eq (isAbsolute_path h)
  have hpath : target.path.undotted = target.path.inner := undotted_eq_inner (isContained_path h)
  unfold sourceRoots rootSteps
  dsimp only
  rw [hbase, hpath]
  split
  · rw [List.map_singleton, components_ofComponents hsteps]
  · rw [List.map_map]
    refine List.map_congr_left fun source hsource => ?_
    have hcontained := isContained_of_mem_sources h hsource
    have hall : ∀ c ∈ target.path.inner ++ source.inner, c.IsStep :=
      List.forall_mem_append.2 ⟨hsteps, fun _ => isStep_of_mem_inner⟩
    rw [Function.comp_apply, normalize_join (isAbsolute_ofComponents hsteps)
      (ofComponents_text_ne_empty (inner_path_ne_nil h) hsteps)
      (isAbsolute_of_isContained hcontained), inner_ofComponents hsteps,
      components_ofComponents hall, undotted_eq_inner hcontained]

theorem mem_rootSteps_iff (h : target.isValid = true) {steps : List Component} :
    steps ∈ target.rootSteps ↔ ∃ root ∈ target.sourceRoots, root.components = steps := by
  rw [← components_sourceRoots h, List.mem_map]

end Target

namespace Graph

variable {graph : Graph}

/-! ## Two targets -/

/-- No source root of either target lies in one of the other. -/
def RootsApart (a b : Target) : Prop :=
  ∀ x ∈ a.sourceRoots, ∀ y ∈ b.sourceRoots,
    ¬x.components <+: y.components ∧ ¬y.components <+: x.components

instance : Std.Symm RootsApart where
  symm a b h := by
    intro y hy x hx
    obtain ⟨hxy, hyx⟩ := h x hx y hy
    exact ⟨hyx, hxy⟩

theorem sharedRoot?_eq_none_iff {x y : Path} :
    sharedRoot? x y = none ↔ ¬x.components <+: y.components ∧ ¬y.components <+: x.components := by
  rw [← Path.startsWith_iff, ← Path.startsWith_iff]
  unfold sharedRoot?
  cases y.startsWith x <;> cases x.startsWith y <;> simp

theorem overlap?_eq_none_iff {a b : Target} : overlap? a b = none ↔ RootsApart a b := by
  unfold overlap? RootsApart
  rw [Option.map_eq_none_iff, List.findSome?_eq_none_iff]
  simp only [List.findSome?_eq_none_iff, sharedRoot?_eq_none_iff]

/-! ## All targets -/

theorem firstOverlap?_eq_none_iff {targets : List Target} :
    firstOverlap? targets = none ↔ targets.Pairwise RootsApart := by
  induction targets with
  | nil => simp [firstOverlap?]
  | cons first rest ih =>
    rw [firstOverlap?, List.pairwise_cons, ← ih]
    have hfirst : rest.findSome? (overlap? first) = none ↔ ∀ b ∈ rest, RootsApart first b := by
      rw [List.findSome?_eq_none_iff]
      simp only [overlap?_eq_none_iff]
    rw [← hfirst]
    cases rest.findSome? (overlap? first) with
    | none => simp
    | some error => simp

/-- In a graph names are distinct, so what holds of any two positions holds of any two names. -/
theorem pairwise_targets_iff {r : Target → Target → Prop} [Std.Symm r] :
    graph.targets.Pairwise r ↔
      ∀ a ∈ graph.targets, ∀ b ∈ graph.targets, a.name ≠ b.name → r a b := by
  constructor
  · intro h a ha b hb hne
    have hdistinct : a ≠ b := fun heq => hne (congrArg Target.name heq)
    exact h.forall ha hb hdistinct
  · intro h
    have hnames : graph.targets.Pairwise fun a b => a.name ≠ b.name :=
      List.pairwise_map.1 graph.distinct
    exact hnames.imp_of_mem fun ha hb hne => h _ ha _ hb hne

/-- The check of the source roots passes exactly when no root of one target is the beginning of a
    root of another. -/
theorem checkRoots_eq_ok_iff :
    graph.checkRoots = .ok () ↔
      ∀ a ∈ graph.targets, ∀ b ∈ graph.targets, a.name ≠ b.name →
        ∀ x ∈ a.rootSteps, ∀ y ∈ b.rootSteps, ¬x <+: y := by
  have hcheck : graph.checkRoots = .ok () ↔ firstOverlap? graph.targets = none := by
    unfold checkRoots
    cases firstOverlap? graph.targets with
    | none => simp
    | some error => simp
  rw [hcheck, firstOverlap?_eq_none_iff, pairwise_targets_iff]
  constructor
  · intro h a ha b hb hne x hx y hy
    obtain ⟨p, hp, rfl⟩ := (Target.mem_rootSteps_iff (graph.valid a ha)).1 hx
    obtain ⟨q, hq, rfl⟩ := (Target.mem_rootSteps_iff (graph.valid b hb)).1 hy
    exact (h a ha b hb hne p hp q hq).1
  · intro h a ha b hb hne p hp q hq
    have hx := (Target.mem_rootSteps_iff (graph.valid a ha)).2 ⟨p, hp, rfl⟩
    have hy := (Target.mem_rootSteps_iff (graph.valid b hb)).2 ⟨q, hq, rfl⟩
    exact ⟨h a ha b hb hne _ hx _ hy, h b hb a ha (Ne.symm hne) _ hy _ hx⟩

/-- Below roots of two targets there is no common place. -/
theorem not_both_prefix (h : graph.checkRoots = .ok ()) {a b : Target} (ha : a ∈ graph.targets)
    (hb : b ∈ graph.targets) (hne : a.name ≠ b.name) {x y place : List Component}
    (hx : x ∈ a.rootSteps) (hy : y ∈ b.rootSteps) (hxplace : x <+: place) : ¬y <+: place := by
  intro hyplace
  rw [checkRoots_eq_ok_iff] at h
  rcases List.prefix_or_prefix_of_prefix hxplace hyplace with hxy | hyx
  · exact h a ha b hb hne x hx y hy hxy
  · exact h b hb a ha (Ne.symm hne) y hy x hx hyx

end Graph

end PackagePlan
