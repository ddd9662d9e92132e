/-
  The search behind a closure, on any graph. `Search` is the search as it runs, step by step and
  without a bound; it comes to an end whatever the dependencies are (`Searching.search_iff`), and
  with it the closure has one of four answers (`answer_closure`). Main statement: `closure_exact`.
-/
import PackagePlan.Proofs.Graph.Closure

namespace PackagePlan

/-- A list of names that is the closure of a name, for an order of all targets: it holds what the
    name needs, once, and in that order. -/
structure Target.IsClosure (targets : List Target) (order : List String) (name : String)
    (closure : List String) : Prop where
  mem_iff : ∀ other, other ∈ closure ↔ Needs targets name other
  nodup : closure.Nodup
  apart : name ∉ closure
  ordered : closure.Sublist order

namespace Graph

open Target (IsClosure Needs)

variable {graph : Graph} {name start : String}

/-- A run of the search, with the names reached so far and those that are pending. The name pending
    last is taken: if it was reached before it is passed over, and otherwise it is looked up among
    all targets, and what its target lists is pending too. -/
inductive Search (graph : Graph) (start : String) :
    List String → List String → Except BuildError (List String) → Prop where
  | done {reached : List String} : Search graph start reached [] (.ok reached)
  | skip {name : String} {reached pending : List String} {outcome : Except BuildError (List String)}
      (h : name ∈ reached) (rest : Search graph start reached pending outcome) :
      Search graph start reached (name :: pending) outcome
  | unknown {name : String} {reached pending : List String} (hfresh : name ∉ reached)
      (h : graph.target? name = none) :
      Search graph start reached (name :: pending)
        (.error (.unresolvedReference name (.target start)))
  | follow {name : String} {reached pending : List String}
      {outcome : Except BuildError (List String)} {target : Target} (hfresh : name ∉ reached)
      (h : graph.target? name = some target)
      (rest : Search graph start (name :: reached) (target.dependencies.reverse ++ pending)
        outcome) :
      Search graph start reached (name :: pending) outcome

/-- What asking for the closure of a name comes to. -/
inductive Answer (graph : Graph) (name : String) : Except BuildError (List String) → Prop where
  | undeclared (h : name ∉ graph.names) : Answer graph name (.error (.targetNotFound name))
  /-- The search meets a needed name that nobody declares. -/
  | dangling {target : Target} {other : String} (htarget : graph.target? name = some target)
      (hsearch : graph.Search name [] target.dependencies.reverse
        (.error (.unresolvedReference other (.target name))))
      (needs : Needs graph.targets name other) (undeclared : other ∉ graph.names) :
      Answer graph name (.error (.unresolvedReference other (.target name)))
  /-- The search ends well, but the targets cannot be put in order. -/
  | unordered {target : Target} {reached : List String} {error : BuildError}
      (htarget : graph.target? name = some target)
      (hsearch : graph.Search name [] target.dependencies.reverse (.ok reached))
      (horder : graph.buildOrder = .error error) : Answer graph name (.error error)
  | closed {target : Target} {reached order : List String}
      (htarget : graph.target? name = some target)
      (hsearch : graph.Search name [] target.dependencies.reverse (.ok reached))
      (horder : graph.buildOrder = .ok order) :
      Answer graph name (.ok (order.filter fun member => decide (member ∈ reached)))

/-! ## The search comes to an end -/

namespace Searching

variable {unreached : List Target} {reached pending : List String}
  {outcome : Except BuildError (List String)}

theorem target?_eq_none (h : Searching graph start unreached reached pending)
    (hfresh : name ∉ reached) (hfind : unreached.find? (·.name == name) = none) :
    graph.target? name = none :=
  target?_eq_none_iff.2 (h.not_declared_of_find?_eq_none hfresh hfind)

theorem target?_eq_some (h : Searching graph start unreached reached pending) {target : Target}
    (hfind : unreached.find? (·.name == name) = some target) :
    graph.target? name = some target :=
  target?_eq_some_iff.2 ⟨h.known target (List.mem_of_find?_eq_some hfind),
    by simpa using List.find?_some hfind⟩

/-- The search has one outcome, although its runs know no bound: it is found by a search among
    fewer and fewer targets. -/
theorem search_iff (h : Searching graph start unreached reached pending) :
    graph.Search start reached pending outcome ↔
      outcome = reach start unreached reached pending := by
  induction unreached, reached, pending using reach.induct with
  | case1 unreached reached =>
    rw [reach_nil]
    constructor
    · intro hsearch
      cases hsearch
      rfl
    · rintro rfl
      exact .done
  | case2 unreached reached name pending hdone ih =>
    rw [reach_done hdone, ← ih (h.skip hdone)]
    constructor
    · intro hsearch
      cases hsearch with
      | skip _ rest => exact rest
      | unknown hfresh => exact absurd hdone hfresh
      | follow hfresh => exact absurd hdone hfresh
    · exact .skip hdone
  | case3 unreached reached name pending hfresh hfind =>
    have hnone := h.target?_eq_none hfresh hfind
    rw [reach_unknown hfresh hfind]
    constructor
    · intro hsearch
      cases hsearch with
      | skip hdone => exact absurd hdone hfresh
      | unknown => rfl
      | follow _ hsome => cases hnone.symm.trans hsome
    · rintro rfl
      exact .unknown hfresh hnone
  | case4 unreached reached name pending hfresh target hfind ih =>
    have hsome := h.target?_eq_some hfind
    rw [reach_target hfresh hfind, ← ih (h.take hfind)]
    constructor
    · intro hsearch
      cases hsearch with
      | skip hdone => exact absurd hdone hfresh
      | unknown _ hnone => cases hnone.symm.trans hsome
      | follow _ hother rest =>
        cases hother.symm.trans hsome
        exact rest
    · exact .follow hfresh hsome

end Searching

/-! ## The answers -/

/-- On every graph, and for every name, the closure has one of the four answers. -/
theorem answer_closure (graph : Graph) (name : String) :
    graph.Answer name (graph.closure name) := by
  unfold Graph.closure
  split
  · next hnone => exact .undeclared (target?_eq_none_iff.1 hnone)
  · next target htarget =>
    have hstart := Searching.start_of htarget
    have hsearch := hstart.search_iff.2 rfl
    cases hreach : reach name graph.targets [] target.dependencies.reverse with
    | error error =>
      obtain ⟨other, rfl, hneeds, hundeclared⟩ := hstart.reach_error hreach
      rw [hreach] at hsearch
      exact .dangling htarget hsearch hneeds hundeclared
    | ok reached =>
      rw [hreach] at hsearch
      cases horder : graph.buildOrder with
      | error error => exact .unordered htarget hsearch horder
      | ok order => exact .closed htarget hsearch horder

/-- No target is missing but the one that the closure is asked for. -/
theorem closure_eq_targetNotFound_iff {other : String} :
    graph.closure name = .error (.targetNotFound other) ↔ name ∉ graph.names ∧ other = name := by
  constructor
  · intro h
    have hanswer := answer_closure graph name
    rw [h] at hanswer
    cases hanswer with
    | undeclared hname => exact ⟨hname, rfl⟩
    | unordered _ _ horder => cases buildOrder_error horder
  · rintro ⟨hname, rfl⟩
    unfold Graph.closure
    rw [target?_eq_none_iff.2 hname]

/-! ## Closures of a graph that can be ordered -/

variable {closure order : List String}

theorem isClosure_of_closure (hacyclic : Target.Acyclic graph.targets)
    (horder : graph.buildOrder = .ok order) (hname : name ∈ graph.names)
    (h : graph.closure name = .ok closure) : IsClosure graph.targets order name closure := by
  obtain ⟨order', reached, horder', -, hfilter⟩ := closure_eq_ok h
  cases horder.symm.trans horder'
  have hsublist : closure.Sublist order := hfilter ▸ List.filter_sublist
  exact {
    mem_iff := fun _ => mem_closure_iff h
    nodup := (settled_buildOrder horder).1.nodup.sublist hsublist
    apart := fun hself => hacyclic name hname ((mem_closure_iff h).1 hself)
    ordered := hsublist }

/-- The closure of a member is taken out of the same order. -/
theorem sublist_of_mem_closure {member : String} {inner : List String}
    (h : graph.closure name = .ok closure) (hmember : member ∈ closure)
    (hinner : graph.closure member = .ok inner) : inner.Sublist closure := by
  obtain ⟨order, reached, horder, hreached, rfl⟩ := closure_eq_ok h
  obtain ⟨order', below, horder', hbelow, rfl⟩ := closure_eq_ok hinner
  cases horder.symm.trans horder'
  have hneeds := (mem_closure_iff h).1 hmember
  refine List.monotone_filter_right order fun other hother => ?_
  rw [decide_eq_true_eq, hbelow] at hother
  rw [decide_eq_true_eq, hreached]
  exact hneeds.trans hother

/-! ## The main statement -/

/-- For every accepted list of targets the search behind a closure comes to an end, and a missing
    target is reported exactly for the names that are not declared. If the targets pass the check,
    every declared name has a closure, which holds what the name needs, once, without the name
    itself, and in build order; the closures of its members are subsequences of it. -/
theorem closure_exact {targets : List Target} (h : ofTargets targets = .ok graph) :
    (∀ name, graph.Answer name (graph.closure name)) ∧
    (∀ name, (∃ other, graph.closure name = .error (.targetNotFound other)) ↔
      name ∉ Target.names targets) ∧
    (graph.check = .ok () → ∃ order, graph.buildOrder = .ok order ∧
      ∀ name ∈ Target.names targets, ∃ closure, graph.closure name = .ok closure ∧
        IsClosure targets order name closure ∧
        ∀ member ∈ closure, ∃ inner, graph.closure member = .ok inner ∧ inner.Sublist closure) := by
  obtain rfl := targets_of_ofTargets h
  refine ⟨answer_closure graph, fun name => ?_, fun hvalid => ?_⟩
  · simp only [closure_eq_targetNotFound_iff, exists_eq_right]
    rfl
  · have hsound := check_eq_ok_iff.1 hvalid
    obtain ⟨order, horder⟩ := exists_buildOrder_iff.2 hsound
    refine ⟨order, horder, fun name hname => ?_⟩
    obtain ⟨closure, hclosure⟩ := exists_closure horder hname
    refine ⟨closure, hclosure, isClosure_of_closure hsound.2 horder hname hclosure, ?_⟩
    intro member hmember
    have hdeclared := mem_names_of_needs hsound.1 ((mem_closure_iff hclosure).1 hmember)
    obtain ⟨inner, hinner⟩ := exists_closure horder hdeclared
    exact ⟨inner, hinner, sublist_of_mem_closure hclosure hmember hinner⟩

/-- The diamond as a graph. -/
def shelf : Graph where
  targets := diamond
  valid := by decide +kernel
  distinct := by decide

/-- The application of the diamond needs the three others, and what the network needs is among
    them. -/
theorem closure_shelf : shelf.closure "app" = .ok ["core", "ui", "net"] ∧
    (∃ order, shelf.buildOrder = .ok order ∧
      IsClosure diamond order "app" ["core", "ui", "net"]) ∧
    ∃ inner, shelf.closure "net" = .ok inner ∧ inner.Sublist ["core", "ui", "net"] := by
  have haccepted : ofTargets diamond = .ok shelf := ofTargets_eq_ok_iff.2 rfl
  have hmade : shelf.closure "app" = .ok ["core", "ui", "net"] := by cbv
  obtain ⟨order, horder, hall⟩ := (closure_exact haccepted).2.2 (by cbv)
  obtain ⟨closure, hclosure, hexact, hmembers⟩ := hall "app" (by decide)
  obtain rfl := Except.ok.inj (hclosure.symm.trans hmade)
  exact ⟨hmade, ⟨order, horder, hexact⟩, hmembers "net" (by decide)⟩

end Graph

end PackagePlan
