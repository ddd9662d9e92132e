/-
  What the graph algorithms look at. The build order, the waves and the closures are made from the
  names and the dependency lists alone: two graphs that agree in these, target by target, have the
  same orders (`buildOrder_congr`), waves (`waves_congr`) and closures (`closure_congr`).
-/
import PackagePlan.Graph.Waves
import PackagePlan.Proofs.Graph.Closure

namespace PackagePlan

namespace Graph

/-- The two lists have the same edges, in order. -/
def SameEdges (targets others : List Target) : Prop :=
  targets.map Target.edges = others.map Target.edges

variable {targets others : List Target}

theorem SameEdges.names (h : SameEdges targets others) :
    Target.names targets = Target.names others := by
  have hnames : ∀ list : List Target, Target.names list = (list.map Target.edges).map (·.1) := by
    intro list
    rw [List.map_map]
    rfl
  rw [hnames, hnames, h]

/-- The targets that a test of the edges lets through. -/
theorem SameEdges.filter (h : SameEdges targets others) {test : Target → Bool}
    (p : String × List String → Bool) (htest : ∀ target, test target = p target.edges) :
    SameEdges (targets.filter test) (others.filter test) := by
  obtain rfl : test = p ∘ Target.edges := funext htest
  unfold SameEdges at *
  rw [← List.filter_map, ← List.filter_map, h]

theorem SameEdges.without (h : SameEdges targets others) (name : String) :
    SameEdges (without name targets) (without name others) :=
  h.filter (·.1 != name) fun _ => rfl

/-- Under a name both lists have a target, with the same dependencies, or neither has. -/
theorem SameEdges.find? (h : SameEdges targets others) (name : String) :
    (targets.find? (·.name == name)).map Target.edges =
      (others.find? (·.name == name)).map Target.edges := by
  have hfind : ∀ list : List Target, (list.find? (·.name == name)).map Target.edges =
      (list.map Target.edges).find? (·.1 == name) := fun list => by
    rw [List.find?_map]
    rfl
  rw [hfind, hfind, h]

theorem SameEdges.find?_none (h : SameEdges targets others) {name : String}
    (hfind : targets.find? (·.name == name) = none) :
    others.find? (·.name == name) = none := by
  have hsame := h.find? name
  rw [hfind, Option.map_none] at hsame
  exact Option.map_eq_none_iff.1 hsame.symm

theorem SameEdges.find?_some (h : SameEdges targets others) {name : String} {target : Target}
    (hfind : targets.find? (·.name == name) = some target) :
    ∃ other, others.find? (·.name == name) = some other ∧
      other.dependencies = target.dependencies := by
  have hsame := h.find? name
  rw [hfind, Option.map_some] at hsame
  obtain ⟨other, hother, hedges⟩ := Option.map_eq_some_iff.1 hsame.symm
  exact ⟨other, hother, congrArg Prod.snd hedges⟩

/-! ## Targets side by side -/

section
variable {R : Target → Target → Prop} (hR : ∀ {a b : Target}, R a b → b.edges = a.edges)
include hR

theorem sameEdges_of_forall₂ (h : List.Forall₂ R targets others) : SameEdges targets others :=
  Outcome.map_eq_of_forall₂ h fun _ _ hsame => (hR hsame).symm

/-- What two graphs have under one name stands side by side. -/
theorem rel_of_target? {graph other : Graph} (hall : List.Forall₂ R graph.targets other.targets)
    {name : String} {target target' : Target} (h : graph.target? name = some target)
    (h' : other.target? name = some target') : R target target' := by
  obtain ⟨hmem, hname⟩ := target?_eq_some_iff.1 h
  obtain ⟨hmem', hname'⟩ := target?_eq_some_iff.1 h'
  obtain ⟨found, hfound, hsame⟩ := Outcome.exists_of_mem_forall₂ hall hmem
  have hnames : found.name = target.name := congrArg Prod.fst (hR hsame)
  obtain rfl := Target.eq_of_name_eq other.distinct hfound hmem'
    (hnames.trans (hname.trans hname'.symm))
  exact hsame

end

/-! ## The walk -/

theorem visit_congr {owner : String} {path names order : List String}
    (h : SameEdges targets others) :
    visit owner targets path names order = visit owner others path names order := by
  induction owner, targets, path, names, order using visit.induct generalizing others with
  | case1 owner targets path order => rw [visit_nil, visit_nil]
  | case2 owner targets path name rest order hdone ih =>
    rw [visit_done hdone, visit_done hdone, ih h]
  | case3 owner targets path name rest order hfresh hon =>
    rw [visit_again hfresh hon, visit_again hfresh hon]
  | case4 owner targets path name rest order hfresh hoff hfind =>
    rw [visit_unknown hfresh hoff hfind, visit_unknown hfresh hoff (h.find?_none hfind)]
  | case5 owner targets path name rest order hfresh hoff target hfind ihBelow ihRest =>
    obtain ⟨other, hother, hdependencies⟩ := h.find?_some hfind
    rw [visit_target hfresh hoff hfind, visit_target hfresh hoff hother, hdependencies,
      ihBelow (h.without name)]
    exact bind_congr fun below => ihRest below h

theorem reach_congr {start : String} {reached pending : List String}
    (h : SameEdges targets others) :
    reach start targets reached pending = reach start others reached pending := by
  induction targets, reached, pending using reach.induct generalizing others with
  | case1 targets reached => rw [reach_nil, reach_nil]
  | case2 targets reached name pending hdone ih => rw [reach_done hdone, reach_done hdone, ih h]
  | case3 targets reached name pending hfresh hfind =>
    rw [reach_unknown hfresh hfind, reach_unknown hfresh (h.find?_none hfind)]
  | case4 targets reached name pending hfresh target hfind ih =>
    obtain ⟨other, hother, hdependencies⟩ := h.find?_some hfind
    rw [reach_target hfresh hfind, reach_target hfresh hother, hdependencies, ih (h.without name)]

theorem wavesFrom_congr {built : List String} (h : SameEdges targets others) :
    wavesFrom built targets = wavesFrom built others := by
  have hready : ∀ {list more : List Target} (built : List String), SameEdges list more →
      SameEdges (ready built list) (ready built more) := fun built hsame =>
    hsame.filter (fun edges => edges.2.all fun name => decide (name ∈ built)) fun _ => rfl
  induction built, targets using wavesFrom.induct generalizing others with
  | case1 built targets hnone =>
    have hsame := hready built h
    rw [hnone] at hsame
    rw [wavesFrom_nil hnone, wavesFrom_nil (List.map_eq_nil_iff.1 hsame.symm)]
  | case2 built targets wave hsome =>
    rename_i ih
    have hsame := hready built h
    have hother : ready built others ≠ [] := by
      intro hnone
      rw [hnone] at hsame
      exact hsome (List.map_eq_nil_iff.1 hsame)
    have hwave : wave = Target.names (ready built others) := hsame.names
    have hblocked : SameEdges (blocked built targets) (blocked built others) :=
      h.filter (fun edges => !edges.2.all fun name => decide (name ∈ built)) fun _ => rfl
    rw [wavesFrom_cons hsome, wavesFrom_cons hother, ← hwave, ih hblocked]

/-! ## Two graphs -/

variable {graph other : Graph} (h : SameEdges graph.targets other.targets)
include h

theorem buildOrder_congr : graph.buildOrder = other.buildOrder := by
  unfold buildOrder
  rw [visit_congr h]
  exact congrArg (fun names => visit "" other.targets [] names []) h.names

theorem waves_congr : graph.waves = other.waves := by
  unfold Graph.waves
  rw [buildOrder_congr h, wavesFrom_congr h]

theorem closure_congr : graph.closure = other.closure := by
  funext name
  unfold closure target?
  cases hfind : graph.targets.find? (·.name == name) with
  | none => rw [h.find?_none hfind]
  | some target =>
    obtain ⟨found, hfound, hdependencies⟩ := h.find?_some hfind
    rw [hfound]
    dsimp only
    rw [hdependencies, reach_congr h, buildOrder_congr h]

end Graph

end PackagePlan
