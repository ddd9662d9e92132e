/-
  The closure of a target is what it needs. `Searching` ties the names reached so far to those
  still pending; a search that ends has reached everything needed and nothing else
  (`Searching.reach_ok`). Filtered out of the build order it is a subsequence of it that lies in
  front of the target (`closure_sublist_before`).
-/
import PackagePlan.Proofs.Graph.Order

namespace PackagePlan.Graph

open Target (DependsOn Needs Resolved)

variable {graph : Graph}

/-! ## One step of the search -/

section
variable {start name : String} {unreached : List Target} {reached pending : List String}

theorem reach_nil : reach start unreached reached [] = .ok reached := by rw [reach]

theorem reach_done (h : name ∈ reached) :
    reach start unreached reached (name :: pending) = reach start unreached reached pending := by
  rw [reach, if_pos h]

theorem reach_unknown (hfresh : name ∉ reached) (h : unreached.find? (·.name == name) = none) :
    reach start unreached reached (name :: pending) =
      .error (.unresolvedReference name (.target start)) := by
  rw [reach, if_neg hfresh]
  split
  · rfl
  · next hsome => rw [h] at hsome; cases hsome

theorem reach_target {target : Target} (hfresh : name ∉ reached)
    (h : unreached.find? (·.name == name) = some target) :
    reach start unreached reached (name :: pending) =
      reach start (without name unreached) (name :: reached)
        (target.dependencies.reverse ++ pending) := by
  rw [reach, if_neg hfresh]
  split
  · next hnone => rw [h] at hnone; cases hnone
  · next hsome => rw [h] at hsome; cases hsome; rfl

end

/-! ## What holds at every call -/

/-- The state of a search: all that was reached or is pending is needed, and what the start and
    the reached targets list has been reached or is pending. -/
structure Searching (graph : Graph) (start : String) (unreached : List Target)
    (reached pending : List String) : Prop where
  known : ∀ target ∈ unreached, target ∈ graph.targets
  covered : ∀ target ∈ graph.targets, target.name ∈ reached ∨ target ∈ unreached
  needed : ∀ name, name ∈ reached ∨ name ∈ pending → Needs graph.targets start name
  followed : ∀ name, name = start ∨ name ∈ reached → ∀ other, DependsOn graph.targets name other →
    other ∈ reached ∨ other ∈ pending

namespace Searching

variable {start name : String} {unreached : List Target} {reached pending : List String}

theorem start_of {target : Target} (h : graph.target? start = some target) :
    Searching graph start graph.targets [] target.dependencies.reverse where
  known _ h := h
  covered _ h := .inr h
  needed name hname := by
    obtain ⟨hmem, hstart⟩ := target?_eq_some_iff.1 h
    rcases hname with hname | hname
    · cases hname
    · exact .single ⟨target, hmem, hstart, List.mem_reverse.1 hname⟩
  followed name hname other hdep := by
    obtain ⟨hmem, hstart⟩ := target?_eq_some_iff.1 h
    rcases hname with rfl | hname
    · obtain ⟨owner, howner, hname, hlists⟩ := hdep
      rw [Target.eq_of_name_eq graph.distinct howner hmem (hname.trans hstart.symm)] at hlists
      exact .inr (List.mem_reverse.2 hlists)
    · cases hname

/-- A name reached before is passed over. -/
theorem skip (h : Searching graph start unreached reached (name :: pending))
    (hdone : name ∈ reached) : Searching graph start unreached reached pending where
  known := h.known
  covered := h.covered
  needed other hother := h.needed other (hother.imp_right (List.mem_cons_of_mem _))
  followed owner howner other hdep := by
    rcases h.followed owner howner other hdep with hother | hother
    · exact .inl hother
    · rcases List.mem_cons.1 hother with rfl | hother
      · exact .inl hdone
      · exact .inr hother

/-- A name reached now leaves what its target lists pending. -/
theorem take (h : Searching graph start unreached reached (name :: pending)) {target : Target}
    (hfind : unreached.find? (·.name == name) = some target) :
    Searching graph start (without name unreached) (name :: reached)
      (target.dependencies.reverse ++ pending) := by
  have hmem := h.known target (List.mem_of_find?_eq_some hfind)
  have hname : target.name = name := by simpa using List.find?_some hfind
  have hneeds : Needs graph.targets start name := h.needed name (.inr (List.mem_cons_self ..))
  refine ⟨fun other hother => h.known other (mem_without.1 hother).1, ?_, ?_, ?_⟩
  · intro other hother
    rcases h.covered other hother with hreached | hunreached
    · exact .inl (List.mem_cons_of_mem _ hreached)
    · by_cases heq : other.name = name
      · exact .inl (heq ▸ List.mem_cons_self ..)
      · exact .inr (mem_without.2 ⟨hunreached, heq⟩)
  · intro other hother
    rcases hother with hother | hother
    · rcases List.mem_cons.1 hother with rfl | hother
      · exact hneeds
      · exact h.needed other (.inl hother)
    · rcases List.mem_append.1 hother with hother | hother
      · exact hneeds.tail ⟨target, hmem, hname, List.mem_reverse.1 hother⟩
      · exact h.needed other (.inr (List.mem_cons_of_mem _ hother))
  · intro owner howner other hdep
    by_cases heq : owner = name
    · obtain ⟨declared, hdeclared, hdname, hlists⟩ := hdep
      rw [Target.eq_of_name_eq graph.distinct hdeclared hmem (by rw [hdname, heq, hname])] at hlists
      exact .inr (List.mem_append_left _ (List.mem_reverse.2 hlists))
    · have howner' : owner = start ∨ owner ∈ reached :=
        howner.imp_right fun hin => (List.mem_cons.1 hin).resolve_left heq
      rcases h.followed owner howner' other hdep with hother | hother
      · exact .inl (List.mem_cons_of_mem _ hother)
      · rcases List.mem_cons.1 hother with rfl | hother
        · exact .inl (List.mem_cons_self ..)
        · exact .inr (List.mem_append_right _ hother)

/-- A declared name that has not been reached is still unreached. -/
theorem not_declared_of_find?_eq_none (h : Searching graph start unreached reached pending)
    (hfresh : name ∉ reached) (hfind : unreached.find? (·.name == name) = none) :
    name ∉ graph.names := by
  intro hname
  obtain ⟨target, hmem, rfl⟩ := Target.mem_names.1 hname
  rcases h.covered target hmem with hreached | hunreached
  · exact hfresh hreached
  · simpa using List.find?_eq_none.1 hfind target hunreached

/-! ## The whole search -/

/-- A search that ends well has reached exactly what the start needs. -/
theorem reach_ok {result : List String} (h : Searching graph start unreached reached pending)
    (hreach : reach start unreached reached pending = .ok result) :
    ∀ name, name ∈ result ↔ Needs graph.targets start name := by
  induction unreached, reached, pending using reach.induct with
  | case1 unreached reached =>
    rw [reach_nil] at hreach
    obtain rfl := Except.ok.inj hreach
    intro name
    refine ⟨fun hname => h.needed name (.inl hname), fun hneeds => ?_⟩
    have hclosed : ∀ owner, owner = start ∨ owner ∈ reached → ∀ other,
        DependsOn graph.targets owner other → other ∈ reached := fun owner howner other hdep =>
      (h.followed owner howner other hdep).resolve_right (List.not_mem_nil)
    induction hneeds with
    | single hdep => exact hclosed start (.inl rfl) _ hdep
    | tail _ hdep ih => exact hclosed _ (.inr ih) _ hdep
  | case2 unreached reached name pending hdone ih =>
    rw [reach_done hdone] at hreach
    exact ih (h.skip hdone) hreach
  | case3 unreached reached name pending hfresh hfind =>
    rw [reach_unknown hfresh hfind] at hreach
    cases hreach
  | case4 unreached reached name pending hfresh target hfind ih =>
    rw [reach_target hfresh hfind] at hreach
    exact ih (h.take hfind) hreach

/-- A search only fails at a needed name that is not declared. -/
theorem reach_error {error : BuildError} (h : Searching graph start unreached reached pending)
    (hreach : reach start unreached reached pending = .error error) :
    ∃ name, error = .unresolvedReference name (.target start) ∧
      Needs graph.targets start name ∧ name ∉ graph.names := by
  induction unreached, reached, pending using reach.induct with
  | case1 unreached reached =>
    rw [reach_nil] at hreach
    cases hreach
  | case2 unreached reached name pending hdone ih =>
    rw [reach_done hdone] at hreach
    exact ih (h.skip hdone) hreach
  | case3 unreached reached name pending hfresh hfind =>
    rw [reach_unknown hfresh hfind] at hreach
    exact ⟨name, (Except.error.inj hreach).symm, h.needed name (.inr (List.mem_cons_self ..)),
      h.not_declared_of_find?_eq_none hfresh hfind⟩
  | case4 unreached reached name pending hfresh target hfind ih =>
    rw [reach_target hfresh hfind] at hreach
    exact ih (h.take hfind) hreach

end Searching

/-! ## The closure -/

/-- In a resolved package everything that is needed is declared. -/
theorem mem_names_of_needs (h : Resolved graph.targets) {a b : String}
    (hneeds : Needs graph.targets a b) : b ∈ graph.names := by
  induction hneeds with
  | single hdep =>
    obtain ⟨target, hmem, _, hlists⟩ := hdep
    exact h target hmem _ hlists
  | tail _ hdep _ =>
    obtain ⟨target, hmem, _, hlists⟩ := hdep
    exact h target hmem _ hlists

variable {name : String} {closure order : List String}

/-- A closure that is given comes from a declared target and the build order. -/
theorem closure_eq_ok (h : graph.closure name = .ok closure) :
    ∃ order, ∃ reached : List String, graph.buildOrder = .ok order ∧
      (∀ other, other ∈ reached ↔ Needs graph.targets name other) ∧
      closure = order.filter fun member => decide (member ∈ reached) := by
  unfold Graph.closure at h
  split at h
  · cases h
  · next target htarget =>
    obtain ⟨reached, hreach, h⟩ := Outcome.bind_eq_ok.1 h
    obtain ⟨order, horder, h⟩ := Outcome.bind_eq_ok.1 h
    exact ⟨order, reached, horder, (Searching.start_of htarget).reach_ok hreach,
      (Except.ok.inj h).symm⟩

theorem mem_closure_iff (h : graph.closure name = .ok closure) {other : String} :
    other ∈ closure ↔ Needs graph.targets name other := by
  obtain ⟨order, reached, horder, hreached, rfl⟩ := closure_eq_ok h
  rw [List.mem_filter, decide_eq_true_eq, hreached]
  refine ⟨fun hin => hin.2, fun hneeds => ⟨?_, hneeds⟩⟩
  exact (mem_buildOrder_iff horder).2
    (mem_names_of_needs (exists_buildOrder_iff.1 ⟨order, horder⟩).1 hneeds)

/-- The closure is a subsequence of what stands in front of the target in the build order. -/
theorem closure_sublist_before (h : graph.closure name = .ok closure)
    (horder : graph.buildOrder = .ok order) {pre post : List String}
    (hsplit : order = pre ++ name :: post) : closure.Sublist pre := by
  obtain ⟨order', reached, horder', hreached, rfl⟩ := closure_eq_ok h
  obtain rfl := Except.ok.inj (horder'.symm.trans horder)
  have hsettled := (settled_buildOrder horder).1
  have hafter : (name :: post).filter (fun other => decide (other ∈ reached)) = [] := by
    rw [List.filter_eq_nil_iff]
    intro other hother hin
    rw [decide_eq_true_eq] at hin
    have hbefore := hsettled.mem_before_of_needs graph.distinct ((hreached other).1 hin) hsplit
    have hnodup := hsettled.nodup
    rw [hsplit] at hnodup
    exact (List.nodup_append.1 hnodup).2.2 other hbefore other hother rfl
  rw [hsplit, List.filter_append, hafter, List.append_nil]
  exact List.filter_sublist

/-- In a graph that can be ordered every declared target has a closure. -/
theorem exists_closure (horder : graph.buildOrder = .ok order) (h : name ∈ graph.names) :
    ∃ closure, graph.closure name = .ok closure := by
  obtain ⟨target, htarget⟩ := exists_target_of_mem_names h
  have hresolved := (exists_buildOrder_iff.1 ⟨order, horder⟩).1
  cases hreach : reach name graph.targets [] target.dependencies.reverse with
  | ok reached =>
    unfold Graph.closure
    rw [htarget]
    exact ⟨_, Outcome.bind_eq_ok.2 ⟨reached, hreach, Outcome.bind_eq_ok.2 ⟨order, horder, rfl⟩⟩⟩
  | error error =>
    obtain ⟨other, _, hneeds, hundeclared⟩ := (Searching.start_of htarget).reach_error hreach
    exact absurd (mem_names_of_needs hresolved hneeds) hundeclared

end PackagePlan.Graph
