/-
  Declarations that are appended to others. A walk or a search that ends well among some targets
  ends the same way among more (`visit_append_targets`, `reach_append_targets`), and the rounds that
  make the waves run side by side (`Abreast.next`). So the build order and every wave go on where
  those of the shorter list end, and the closures stay as they were. Main statement:
  `append_keeps_schedule`.
-/
import PackagePlan.Proofs.Graph.Search

namespace PackagePlan.Graph

open Target (Needs Resolved)

/-! ## Walks and searches among more targets -/

section
variable {owner start name : String} {unvisited unreached more : List Target}
  {path names order reached pending result : List String}

theorem without_append :
    without name (unvisited ++ more) = without name unvisited ++ without name more :=
  List.filter_append ..

theorem find?_append_of_eq_some {target : Target}
    (h : unvisited.find? (·.name == name) = some target) :
    (unvisited ++ more).find? (·.name == name) = some target := by
  rw [List.find?_append, h, Option.some_or]

/-- A walk that ends well meets unvisited targets only, so it ends the same way among more. -/
theorem Visits.append_targets (h : Visits unvisited path names order result) :
    Visits (unvisited ++ more) path names order result := by
  induction h generalizing more with
  | nil => exact .nil
  | done hdone _ ih => exact .done hdone ih
  | target hfresh hoff hfind _ _ ihBelow ihRest =>
    exact .target hfresh hoff (find?_append_of_eq_some hfind) (without_append ▸ ihBelow) ihRest

theorem visit_append_targets (h : visit owner unvisited path names order = .ok result) :
    visit owner (unvisited ++ more) path names order = .ok result :=
  visit_eq_ok_iff.2 (visit_eq_ok_iff.1 h).append_targets

/-- The same for a search. -/
theorem reach_append_targets (h : reach start unreached reached pending = .ok result) :
    reach start (unreached ++ more) reached pending = .ok result := by
  induction unreached, reached, pending using reach.induct generalizing more with
  | case1 unreached reached =>
    rw [reach_nil] at h ⊢
    exact h
  | case2 unreached reached name pending hdone ih =>
    rw [reach_done hdone] at h ⊢
    exact ih h
  | case3 unreached reached name pending hfresh hfind =>
    rw [reach_unknown hfresh hfind] at h
    cases h
  | case4 unreached reached name pending hfresh target hfind ih =>
    rw [reach_target hfresh hfind] at h
    rw [reach_target hfresh (find?_append_of_eq_some hfind), without_append]
    exact ih h

end

/-! ## Rounds side by side -/

/-- Two rounds of waves. The one waits for some targets and the other for more of them; `scope`
    holds the names that the first list declares, and of these the same are built in both. -/
structure Abreast (scope built others : List String) (waiting more : List Target) : Prop where
  within : ∀ target ∈ waiting, ∀ name ∈ target.dependencies, name ∈ scope
  apart : ∀ target ∈ more, target.name ∉ scope
  agree : ∀ name ∈ scope, name ∈ others ↔ name ∈ built

namespace Abreast

variable {scope built others : List String} {waiting more : List Target}

theorem isReady_eq (h : Abreast scope built others waiting more) {target : Target}
    (htarget : target ∈ waiting) : isReady others target = isReady built target := by
  have hsame : ∀ name ∈ target.dependencies, name ∈ others ↔ name ∈ built := by
    intro name hname
    exact h.agree name (h.within target htarget name hname)
  rw [Bool.eq_iff_iff, Graph.isReady_iff, Graph.isReady_iff]
  exact forall₂_congr hsame

/-- The targets of the shorter list are ready in the same round of the longer one, in front. -/
theorem ready_append (h : Abreast scope built others waiting more) :
    ready others (waiting ++ more) = ready built waiting ++ ready others more := by
  unfold ready
  rw [List.filter_append, List.filter_congr fun target htarget => h.isReady_eq htarget]

theorem blocked_append (h : Abreast scope built others waiting more) :
    blocked others (waiting ++ more) = blocked built waiting ++ blocked others more := by
  unfold blocked
  rw [List.filter_append, List.filter_congr fun target htarget => by rw [h.isReady_eq htarget]]

theorem names_ready_append (h : Abreast scope built others waiting more) :
    Target.names (ready others (waiting ++ more)) =
      Target.names (ready built waiting) ++ Target.names (ready others more) := by
  unfold Target.names
  rw [h.ready_append, List.map_append]

/-- The next round of both. -/
theorem next (h : Abreast scope built others waiting more) :
    Abreast scope (built ++ Target.names (ready built waiting))
      (others ++ Target.names (ready others (waiting ++ more)))
      (blocked built waiting) (blocked others more) where
  within target htarget := h.within target (mem_blocked.1 htarget).1
  apart target htarget := h.apart target (mem_blocked.1 htarget).1
  agree name hname := by
    have hmore : name ∉ Target.names (ready others more) := by
      intro hready
      obtain ⟨target, htarget, rfl⟩ := Target.mem_names.1 hready
      exact h.apart target (mem_ready.1 htarget).1 hname
    rw [h.names_ready_append, List.mem_append, List.mem_append, List.mem_append, h.agree name hname]
    simp only [hmore, or_false]

/-- Every wave of the shorter list is the front of the wave with its number. -/
theorem prefix_wave (h : Abreast scope built others waiting more) {k : Nat} {wave : List String}
    (hwave : (wavesFrom built waiting)[k]? = some wave) :
    ∃ longer, (wavesFrom others (waiting ++ more))[k]? = some longer ∧ wave <+: longer := by
  induction built, waiting using wavesFrom.induct generalizing others more k with
  | case1 built waiting hnone =>
    rw [wavesFrom_nil hnone] at hwave
    cases hwave
  | case2 built waiting _ hsome =>
    rename_i ih
    have hmore : ready others (waiting ++ more) ≠ [] := by
      rw [h.ready_append]
      exact List.append_ne_nil_of_left_ne_nil hsome _
    rw [wavesFrom_cons hsome] at hwave
    rw [wavesFrom_cons hmore, h.blocked_append]
    cases k with
    | zero =>
      obtain rfl := Option.some.inj hwave
      exact ⟨_, rfl, h.names_ready_append ▸ List.prefix_append ..⟩
    | succ k =>
      exact ih h.next hwave

end Abreast

/-! ## Two graphs -/

section
variable {graph extended : Graph} {more : List Target}

/-- What a target of the shorter list needs stands in the shorter order, so it is not appended. -/
theorem not_needs_of_append {order rest : List String} (horder : graph.buildOrder = .ok order)
    (hlonger : extended.buildOrder = .ok (order ++ rest)) {name other : String}
    (hother : other ∈ rest) : ¬Needs graph.targets name other := by
  intro hneeds
  have hresolved := (exists_buildOrder_iff.1 ⟨order, horder⟩).1
  have hdistinct := (settled_buildOrder hlonger).1.nodup
  have hfront := (mem_buildOrder_iff horder).2 (mem_names_of_needs hresolved hneeds)
  exact (List.nodup_append.1 hdistinct).2.2 other hfront other hother rfl

variable (h : extended.targets = graph.targets ++ more)
include h

theorem names_of_append : extended.names = graph.names ++ Target.names more := by
  unfold Graph.names Target.names
  rw [h, List.map_append]

/-- The names that are appended are new. -/
theorem not_mem_names_of_append {target : Target} (htarget : target ∈ more) :
    target.name ∉ graph.names := by
  intro hname
  have hdistinct : (graph.names ++ Target.names more).Nodup :=
    names_of_append h ▸ extended.distinct
  have hmore : target.name ∈ Target.names more := Target.mem_names.2 ⟨target, htarget, rfl⟩
  exact (List.nodup_append.1 hdistinct).2.2 _ hname _ hmore rfl

theorem target?_of_append {name : String} {target : Target}
    (htarget : graph.target? name = some target) : extended.target? name = some target := by
  unfold target?
  rw [h]
  exact find?_append_of_eq_some htarget

/-- The walk from the declared names first makes the order of the shorter list. -/
theorem prefix_buildOrder {order longer : List String} (horder : graph.buildOrder = .ok order)
    (hlonger : extended.buildOrder = .ok longer) : order <+: longer := by
  have hfirst : visit "" extended.targets [] graph.names [] = .ok order := by
    rw [h]
    exact visit_append_targets horder
  obtain ⟨middle, hmiddle, -, -, hfront⟩ := buildOrder_cut (names_of_append h) hlonger
  obtain rfl := Except.ok.inj (hmiddle.symm.trans hfirst)
  exact hfront

theorem abreast_of_append (hresolved : Resolved graph.targets) :
    Abreast graph.names [] [] graph.targets more where
  within := hresolved
  apart _ := not_mem_names_of_append h
  agree _ _ := Iff.rfl

theorem closure_of_append {name : String} {target : Target} {closure longer : List String}
    (htarget : graph.target? name = some target) (hclosure : graph.closure name = .ok closure)
    (hlonger : extended.buildOrder = .ok longer) : extended.closure name = .ok closure := by
  unfold Graph.closure at hclosure ⊢
  rw [htarget] at hclosure
  rw [target?_of_append h htarget]
  obtain ⟨reached, hreach, hrest⟩ := Outcome.bind_eq_ok.1 hclosure
  obtain ⟨order, horder, hfilter⟩ := Outcome.bind_eq_ok.1 hrest
  obtain ⟨rest, rfl⟩ := prefix_buildOrder h horder hlonger
  have hreached : reach name extended.targets [] target.dependencies.reverse = .ok reached := by
    rw [h]
    exact reach_append_targets hreach
  have hnone : rest.filter (fun member => decide (member ∈ reached)) = [] := by
    rw [List.filter_eq_nil_iff]
    intro other hother hin
    have hneeds := ((Searching.start_of htarget).reach_ok hreach other).1 (of_decide_eq_true hin)
    exact not_needs_of_append horder hlonger hother hneeds
  refine Outcome.bind_eq_ok.2 ⟨reached, hreached, Outcome.bind_eq_ok.2 ⟨_, hlonger, ?_⟩⟩
  rw [List.filter_append, hnone, List.append_nil]
  exact hfilter

end

/-! ## The main statement -/

/-- Where a list of targets and the list with more declarations behind it are both accepted and
    pass the check, the build order of the first is the front of the build order of the second,
    each wave is the front of the wave with its number, and every target of the first has the same
    closure in both. -/
theorem append_keeps_schedule {targets more : List Target} {graph extended : Graph}
    (h : ofTargets targets = .ok graph) (hvalid : graph.check = .ok ())
    (hmore : ofTargets (targets ++ more) = .ok extended) (hmoreValid : extended.check = .ok ()) :
    (∃ order longer, graph.buildOrder = .ok order ∧ extended.buildOrder = .ok longer ∧
      order <+: longer) ∧
    (∃ waves others, graph.waves = .ok waves ∧ extended.waves = .ok others ∧
      ∀ (k : Nat) (wave : List String), waves[k]? = some wave →
        ∃ longer, others[k]? = some longer ∧ wave <+: longer) ∧
    ∀ name ∈ Target.names targets, ∃ closure,
      graph.closure name = .ok closure ∧ extended.closure name = .ok closure := by
  obtain rfl := targets_of_ofTargets h
  have happend := targets_of_ofTargets hmore
  have hsound := check_eq_ok_iff.1 hvalid
  obtain ⟨order, horder⟩ := exists_buildOrder_iff.2 hsound
  obtain ⟨longer, hlonger⟩ := exists_buildOrder_iff.2 (check_eq_ok_iff.1 hmoreValid)
  refine ⟨⟨order, longer, horder, hlonger, prefix_buildOrder happend horder hlonger⟩,
    ⟨_, _, waves_eq_ok.2 ⟨⟨order, horder⟩, rfl⟩, waves_eq_ok.2 ⟨⟨longer, hlonger⟩, rfl⟩, ?_⟩, ?_⟩
  · intro k wave hwave
    rw [happend]
    exact (abreast_of_append happend hsound.1).prefix_wave hwave
  · intro name hname
    obtain ⟨target, htarget⟩ := exists_target_of_mem_names hname
    obtain ⟨closure, hclosure⟩ := exists_closure horder hname
    exact ⟨closure, hclosure, closure_of_append happend htarget hclosure hlonger⟩

/-- The diamond with two more targets behind it, one of which depends on a part of the diamond. -/
def annex : Graph where
  targets := diamond ++ [
    { name := "tools", path := ⟨"tools"⟩ },
    { name := "cli", dependencies := ["tools", "net"], path := ⟨"cli"⟩ }]
  valid := by decide +kernel
  distinct := by decide

/-- The new targets stand behind the others in the order and in the waves, also the one that is
    ready in the first wave. -/
theorem append_keeps_annex :
    (∃ longer, annex.buildOrder = .ok longer ∧ ["core", "ui", "net", "app"] <+: longer) ∧
    (∃ others, annex.waves = .ok others ∧ ∃ longer, others[0]? = some longer ∧
      ["core"] <+: longer) ∧
    annex.closure "app" = .ok ["core", "ui", "net"] := by
  have hshelf : ofTargets diamond = .ok shelf := ofTargets_eq_ok_iff.2 rfl
  have hannex : ofTargets annex.targets = .ok annex := ofTargets_eq_ok_iff.2 rfl
  have hmade : shelf.buildOrder = .ok ["core", "ui", "net", "app"] := by cbv
  have hlayers : shelf.waves = .ok [["core"], ["ui", "net"], ["app"]] := by cbv
  have happ : shelf.closure "app" = .ok ["core", "ui", "net"] := by cbv
  obtain ⟨⟨order, longer, horder, hlonger, hfront⟩, ⟨waves, others, hwaves, hothers, hall⟩,
    hclosures⟩ := append_keeps_schedule hshelf (by cbv) hannex (by cbv)
  obtain rfl := Except.ok.inj (horder.symm.trans hmade)
  obtain rfl := Except.ok.inj (hwaves.symm.trans hlayers)
  obtain ⟨closure, hclosure, hsame⟩ := hclosures "app" (by decide)
  obtain rfl := Except.ok.inj (hclosure.symm.trans happ)
  exact ⟨⟨longer, hlonger, hfront⟩, ⟨others, hothers, hall 0 ["core"] rfl⟩, hsame⟩

end PackagePlan.Graph
