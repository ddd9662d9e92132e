/-
  The depth-first walk that makes the build order. `Visits` is a walk that ends well, step by step.
  `Underway` holds at every call of the walk; it ties together the targets not yet visited, the path
  from the root and the order so far. From it come the two results: a walk that ends well has
  settled every name it was asked for (`Underway.visit_ok`), and one that fails has met a real cycle
  or a name that nobody declares (`Underway.visit_error`).
-/
import PackagePlan.Proofs.Graph.Dependency
import PackagePlan.Proofs.Outcome

namespace PackagePlan.Graph

open Target (DependsOn IsCycle Settled)

variable {graph : Graph}

/-! ## Looking up targets -/

theorem target?_eq_some_iff {name : String} {target : Target} :
    graph.target? name = some target ↔ target ∈ graph.targets ∧ target.name = name :=
  Target.find?_eq_some_iff graph.distinct

theorem exists_target_of_mem_names {name : String} (h : name ∈ graph.names) :
    ∃ target, graph.target? name = some target := by
  obtain ⟨target, hmem, hname⟩ := Target.mem_names.1 h
  exact ⟨target, target?_eq_some_iff.2 ⟨hmem, hname⟩⟩

theorem target?_eq_none_iff {name : String} : graph.target? name = none ↔ name ∉ graph.names := by
  constructor
  · intro hnone hname
    obtain ⟨target, hsome⟩ := exists_target_of_mem_names hname
    rw [hnone] at hsome
    cases hsome
  · intro hname
    cases htarget : graph.target? name with
    | none => rfl
    | some target =>
      obtain ⟨hmem, rfl⟩ := target?_eq_some_iff.1 htarget
      exact absurd (Target.mem_names.2 ⟨target, hmem, rfl⟩) hname

theorem declares_iff {name : String} : graph.declares name = true ↔ name ∈ graph.names := by
  unfold declares
  rw [← Decidable.not_iff_not, Bool.not_eq_true, Option.isSome_eq_false_iff, Option.isNone_iff_eq_none,
    target?_eq_none_iff]

theorem mem_without {name : String} {targets : List Target} {target : Target} :
    target ∈ without name targets ↔ target ∈ targets ∧ target.name ≠ name := by
  unfold without
  rw [List.mem_filter, bne_iff_ne]

/-! ## One step of the walk -/

section
variable {owner name : String} {unvisited : List Target} {path rest order : List String}

theorem visit_nil : visit owner unvisited path [] order = .ok order := by rw [visit]

theorem visit_done (h : name ∈ order) :
    visit owner unvisited path (name :: rest) order = visit owner unvisited path rest order := by
  rw [visit, if_pos h]

theorem visit_again (hfresh : name ∉ order) (h : name ∈ path) :
    visit owner unvisited path (name :: rest) order =
      .error (.cycleDetected (cycleAt path name)) := by
  rw [visit, if_neg hfresh, if_pos h]

theorem visit_unknown (hfresh : name ∉ order) (hoff : name ∉ path)
    (h : unvisited.find? (·.name == name) = none) :
    visit owner unvisited path (name :: rest) order =
      .error (.unresolvedReference name (.target owner)) := by
  rw [visit, if_neg hfresh, if_neg hoff]
  split
  · rfl
  · next hsome => rw [h] at hsome; cases hsome

theorem visit_target {target : Target} (hfresh : name ∉ order) (hoff : name ∉ path)
    (h : unvisited.find? (·.name == name) = some target) :
    visit owner unvisited path (name :: rest) order =
      visit name (without name unvisited) (path ++ [name]) target.dependencies order >>=
        fun below => visit owner unvisited path rest (below ++ [name]) := by
  rw [visit, if_neg hfresh, if_neg hoff]
  split
  · next hnone => rw [h] at hnone; cases hnone
  · next hsome => rw [h] at hsome; cases hsome; rfl

/-- Asking for the names of two lists is asking for those of the one and then of the other. -/
theorem visit_append_names {names others : List String} :
    visit owner unvisited path (names ++ others) order =
      visit owner unvisited path names order >>= visit owner unvisited path others := by
  induction owner, unvisited, path, names, order using visit.induct with
  | case1 owner unvisited path order => rw [visit_nil, List.nil_append, Outcome.ok_bind]
  | case2 owner unvisited path name rest order hdone ih =>
    rw [List.cons_append, visit_done hdone, visit_done hdone, ih]
  | case3 owner unvisited path name rest order hfresh hon =>
    rw [List.cons_append, visit_again hfresh hon, visit_again hfresh hon]
    rfl
  | case4 owner unvisited path name rest order hfresh hoff hfind =>
    rw [List.cons_append, visit_unknown hfresh hoff hfind, visit_unknown hfresh hoff hfind]
    rfl
  | case5 owner unvisited path name rest order hfresh hoff target hfind _ ihRest =>
    rw [List.cons_append, visit_target hfresh hoff hfind, visit_target hfresh hoff hfind,
      bind_assoc]
    exact bind_congr fun below => ihRest below

end

/-- A walk that ends well, from the unvisited targets, the path, the names it is asked for and the
    order before it to the order after it. A name in the order is passed over, and any other is
    found among the unvisited targets. -/
inductive Visits : List Target → List String → List String → List String → List String → Prop where
  | nil {unvisited : List Target} {path order : List String} : Visits unvisited path [] order order
  | done {unvisited : List Target} {path names order result : List String} {name : String}
      (h : name ∈ order) (rest : Visits unvisited path names order result) :
      Visits unvisited path (name :: names) order result
  | target {unvisited : List Target} {path names order below result : List String} {name : String}
      {target : Target} (hfresh : name ∉ order) (hoff : name ∉ path)
      (hfind : unvisited.find? (·.name == name) = some target)
      (hbelow : Visits (without name unvisited) (path ++ [name]) target.dependencies order below)
      (hrest : Visits unvisited path names (below ++ [name]) result) :
      Visits unvisited path (name :: names) order result

theorem visit_eq_ok_iff {owner : String} {unvisited : List Target}
    {path names order result : List String} :
    visit owner unvisited path names order = .ok result ↔
      Visits unvisited path names order result := by
  constructor
  · intro h
    induction owner, unvisited, path, names, order using visit.induct generalizing result with
    | case1 owner unvisited path order =>
      rw [visit_nil] at h
      obtain rfl := Except.ok.inj h
      exact .nil
    | case2 owner unvisited path name rest order hdone ih =>
      rw [visit_done hdone] at h
      exact .done hdone (ih h)
    | case3 owner unvisited path name rest order hfresh hon =>
      rw [visit_again hfresh hon] at h
      cases h
    | case4 owner unvisited path name rest order hfresh hoff hfind =>
      rw [visit_unknown hfresh hoff hfind] at h
      cases h
    | case5 owner unvisited path name rest order hfresh hoff target hfind ihBelow ihRest =>
      rw [visit_target hfresh hoff hfind] at h
      obtain ⟨below, hbelow, hrest⟩ := Outcome.bind_eq_ok.1 h
      exact .target hfresh hoff hfind (ihBelow hbelow) (ihRest below hrest)
  · intro h
    induction h generalizing owner with
    | nil => exact visit_nil
    | done h _ ih => rw [visit_done h, ih]
    | target hfresh hoff hfind _ _ ihBelow ihRest =>
      rw [visit_target hfresh hoff hfind, ihBelow, Outcome.ok_bind, ihRest]

/-! ## What holds at every call -/

/-- The state of a walk: every target is on the path or still unvisited, the path is a chain of
    dependencies without repetition, and the order settles its names and none of the path. -/
structure Underway (graph : Graph) (unvisited : List Target) (path order : List String) :
    Prop where
  known : ∀ target ∈ unvisited, target ∈ graph.targets
  covered : ∀ target ∈ graph.targets, target.name ∈ path ∨ target ∈ unvisited
  chain : path.IsChain (DependsOn graph.targets)
  nodup : path.Nodup
  settled : Settled graph.targets order
  apart : ∀ name ∈ path, name ∉ order

/-- The names a call may be asked for: declared ones at the root, and below it the direct
    dependencies of the target the path ends with. -/
def Asked (graph : Graph) (owner : String) (path : List String) (name : String) : Prop :=
  path = [] ∧ name ∈ graph.names ∨
    path.getLast? = some owner ∧ DependsOn graph.targets owner name

namespace Underway

variable {owner name : String} {unvisited : List Target} {path order : List String}

theorem start (graph : Graph) : Underway graph graph.targets [] [] where
  known _ h := h
  covered _ h := .inr h
  chain := .nil
  nodup := .nil
  settled := .nil
  apart _ h := nomatch h

theorem find?_eq_some (h : Underway graph unvisited path order) {target : Target}
    (hfind : unvisited.find? (·.name == name) = some target) :
    target ∈ graph.targets ∧ target.name = name :=
  ⟨h.known target (List.mem_of_find?_eq_some hfind), by simpa using List.find?_some hfind⟩

/-- A declared name that is not on the path is still unvisited. -/
theorem not_declared_of_find?_eq_none (h : Underway graph unvisited path order)
    (hoff : name ∉ path) (hfind : unvisited.find? (·.name == name) = none) :
    name ∉ graph.names := by
  intro hname
  obtain ⟨target, hmem, rfl⟩ := Target.mem_names.1 hname
  rcases h.covered target hmem with hpath | hunvisited
  · exact hoff hpath
  · simpa using List.find?_eq_none.1 hfind target hunvisited

/-- Going down to a target puts it on the path. -/
theorem descend (h : Underway graph unvisited path order) (hasked : Asked graph owner path name)
    (hfresh : name ∉ order) (hoff : name ∉ path) :
    Underway graph (without name unvisited) (path ++ [name]) order where
  known target htarget := h.known target (mem_without.1 htarget).1
  covered target htarget := by
    rcases h.covered target htarget with hpath | hunvisited
    · exact .inl (List.mem_append_left _ hpath)
    · by_cases hname : target.name = name
      · exact .inl (List.mem_append_right _ (List.mem_singleton.2 hname))
      · exact .inr (mem_without.2 ⟨hunvisited, hname⟩)
  chain := by
    refine List.isChain_append.2 ⟨h.chain, List.isChain_singleton name, ?_⟩
    intro last hlast first hfirst
    obtain rfl : name = first := by simpa using hfirst
    rcases hasked with ⟨rfl, _⟩ | ⟨howner, hdep⟩
    · cases hlast
    · rw [howner] at hlast
      exact Option.mem_some.1 hlast ▸ hdep
  nodup := by
    rw [← List.concat_eq_append]
    exact h.nodup.concat hoff
  settled := h.settled
  apart other hother := by
    rcases List.mem_append.1 hother with hother | hother
    · exact h.apart other hother
    · rwa [List.mem_singleton.1 hother]

/-- Coming back from a target whose dependencies are all settled settles the target. -/
theorem ascend (h : Underway graph unvisited path order) (hoff : name ∉ path) {target : Target}
    {below : List String} (htarget : target ∈ graph.targets ∧ target.name = name)
    (hbelow : Underway graph (without name unvisited) (path ++ [name]) below)
    (hmet : ∀ dependency ∈ target.dependencies, dependency ∈ below) :
    Underway graph unvisited path (below ++ [name]) := by
  have hname : name ∉ below :=
    hbelow.apart name (List.mem_append_right _ (List.mem_singleton_self name))
  obtain ⟨hmem, rfl⟩ := htarget
  refine { h with settled := .snoc hbelow.settled hmem hname hmet, apart := ?_ }
  intro other hother hin
  rcases List.mem_append.1 hin with hin | hin
  · exact hbelow.apart other (List.mem_append_left _ hother) hin
  · exact hoff (List.mem_singleton.1 hin ▸ hother)

/-- What a target lists may be asked for once the target ends the path. -/
theorem asked_below {target : Target} (htarget : target ∈ graph.targets ∧ target.name = name) :
    ∀ dependency ∈ target.dependencies, Asked graph name (path ++ [name]) dependency := by
  intro dependency hdependency
  exact .inr ⟨List.getLast?_concat, target, htarget.1, htarget.2, hdependency⟩

/-! ## The whole walk -/

/-- A walk that ends well extends the order, settles every name it was asked for, and leaves
    everything else as it was. -/
theorem visit_ok {names order' : List String} (h : Underway graph unvisited path order)
    (hasked : ∀ name ∈ names, Asked graph owner path name)
    (hvisit : visit owner unvisited path names order = .ok order') :
    Underway graph unvisited path order' ∧ order <+: order' ∧ ∀ name ∈ names, name ∈ order' := by
  replace hvisit := visit_eq_ok_iff.1 hvisit
  induction hvisit generalizing owner with
  | nil => exact ⟨h, List.prefix_rfl, fun name hname => nomatch hname⟩
  | done hdone _ ih =>
    obtain ⟨hend, hgrown, hall⟩ := ih h fun _ hname => hasked _ (List.mem_cons_of_mem _ hname)
    exact ⟨hend, hgrown, List.forall_mem_cons.2 ⟨hgrown.subset hdone, hall⟩⟩
  | @target _ _ _ _ below _ name _ hfresh hoff hfind _ _ ihBelow ihRest =>
    have htarget := h.find?_eq_some hfind
    obtain ⟨hdown, hgrown, hmet⟩ :=
      ihBelow (h.descend (hasked name (List.mem_cons_self ..)) hfresh hoff) (asked_below htarget)
    obtain ⟨hend, hgrown', hall⟩ :=
      ihRest (h.ascend hoff htarget hdown hmet)
        fun _ hname => hasked _ (List.mem_cons_of_mem _ hname)
    refine ⟨hend, hgrown.trans ((List.prefix_append below [name]).trans hgrown'), ?_⟩
    refine List.forall_mem_cons.2 ⟨hgrown'.subset ?_, hall⟩
    exact List.mem_append_right _ (List.mem_singleton_self name)

theorem cycleAt_append {pre post : List String} (h : name ∉ pre) :
    cycleAt (pre ++ name :: post) name = name :: post := by
  unfold cycleAt
  rw [List.dropWhile_append_of_pos, List.dropWhile_cons_of_neg (by simp)]
  intro other hother
  rw [bne_iff_ne]
  exact fun heq => h (heq ▸ hother)

/-- A name met again on the path closes a cycle, which starts at that name. -/
theorem isCycle_cycleAt (h : Underway graph unvisited path order)
    (hasked : Asked graph owner path name) (hon : name ∈ path) :
    IsCycle graph.targets (cycleAt path name) := by
  rcases hasked with ⟨rfl, _⟩ | ⟨howner, hdep⟩
  · cases hon
  · obtain ⟨pre, post, rfl⟩ := List.append_of_mem hon
    have hpre : name ∉ pre := fun hin =>
      (List.nodup_append.1 h.nodup).2.2 name hin name (List.mem_cons_self ..) rfl
    have hsuffix : name :: post <:+ pre ++ name :: post := List.suffix_append pre _
    rw [List.getLast?_append_of_ne_nil pre (List.cons_ne_nil name post)] at howner
    rw [cycleAt_append hpre]
    exact ⟨h.chain.suffix hsuffix, ⟨name, rfl, owner, howner, hdep⟩,
      h.nodup.sublist hsuffix.sublist⟩

end Underway

/-- What an error of the walk says: either its names are a cycle, or its name is declared nowhere
    and the target it blames lists that name. -/
inductive Blamed (targets : List Target) : BuildError → Prop where
  | cycle {cycle : List String} (real : IsCycle targets cycle) :
      Blamed targets (.cycleDetected cycle)
  | unknown {name owner : String} (undeclared : name ∉ Target.names targets)
      (lists : DependsOn targets owner name) :
      Blamed targets (.unresolvedReference name (.target owner))

/-- A walk only fails for a reason. -/
theorem Underway.visit_error {owner : String} {unvisited : List Target}
    {path names order : List String} {error : BuildError}
    (h : Underway graph unvisited path order) (hasked : ∀ name ∈ names, Asked graph owner path name)
    (hvisit : visit owner unvisited path names order = .error error) :
    Blamed graph.targets error := by
  induction owner, unvisited, path, names, order using visit.induct with
  | case1 owner unvisited path order =>
    rw [visit_nil] at hvisit
    cases hvisit
  | case2 owner unvisited path name rest order hdone ih =>
    rw [visit_done hdone] at hvisit
    exact ih h (fun _ hname => hasked _ (List.mem_cons_of_mem _ hname)) hvisit
  | case3 owner unvisited path name rest order hfresh hon =>
    rw [visit_again hfresh hon] at hvisit
    obtain rfl := Except.error.inj hvisit
    exact .cycle (h.isCycle_cycleAt (hasked name (List.mem_cons_self ..)) hon)
  | case4 owner unvisited path name rest order hfresh hoff hfind =>
    rw [visit_unknown hfresh hoff hfind] at hvisit
    obtain rfl := Except.error.inj hvisit
    have hname := h.not_declared_of_find?_eq_none hoff hfind
    rcases hasked name (List.mem_cons_self ..) with ⟨_, hdeclared⟩ | ⟨_, hdep⟩
    · exact absurd hdeclared hname
    · exact .unknown hname hdep
  | case5 owner unvisited path name rest order hfresh hoff target hfind ihBelow ihRest =>
    have htarget := h.find?_eq_some hfind
    have hdown := h.descend (hasked name (List.mem_cons_self ..)) hfresh hoff
    rw [visit_target hfresh hoff hfind, Outcome.bind_eq_error] at hvisit
    rcases hvisit with hbelow | ⟨below, hbelow, hrest⟩
    · exact ihBelow hdown (asked_below htarget) hbelow
    · obtain ⟨hback, _, hmet⟩ := hdown.visit_ok (asked_below htarget) hbelow
      exact ihRest below (h.ascend hoff htarget hback hmet)
        (fun _ hname => hasked _ (List.mem_cons_of_mem _ hname)) hrest

end PackagePlan.Graph
