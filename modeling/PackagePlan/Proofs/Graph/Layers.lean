/-
  The waves are layers: a target stands in the wave whose number is the length of its longest chain
  of dependencies. `Round` ties the names built after so many rounds to the chains of that length,
  and a round keeps it. The rounds also come to an end: as long as fewer targets are built than are
  declared, the next wave is not empty (`Round.runs`). Main statement: `waves_layered`.
-/
import Mathlib.Order.Bounds.Basic
import PackagePlan.Proofs.Graph.Order

namespace PackagePlan

namespace Target

/-- A chain of so many dependencies starts at the name: each name on it depends on the next. -/
def HasChain (targets : List Target) (name : String) (edges : Nat) : Prop :=
  ∃ rest : List String, (name :: rest).IsChain (DependsOn targets) ∧ rest.length = edges

/-- The longest chain of dependencies that starts at the name has so many edges. -/
def HasHeight (targets : List Target) (name : String) (height : Nat) : Prop :=
  IsGreatest {edges | HasChain targets name edges} height

variable {targets : List Target} {a b name : String} {edges height : Nat}

/-! ## Chains -/

theorem hasChain_zero : HasChain targets name 0 := ⟨[], .singleton name, rfl⟩

theorem hasChain_succ : HasChain targets a (edges + 1) ↔
    ∃ b, DependsOn targets a b ∧ HasChain targets b edges := by
  constructor
  · rintro ⟨rest, hchain, hlength⟩
    cases rest with
    | nil => cases hlength
    | cons b rest =>
      obtain ⟨hab, hrest⟩ := List.isChain_cons_cons.1 hchain
      exact ⟨b, hab, rest, hrest, Nat.succ.inj hlength⟩
  · rintro ⟨b, hab, rest, hrest, rfl⟩
    exact ⟨b :: rest, List.isChain_cons_cons.2 ⟨hab, hrest⟩, rfl⟩

/-- A chain can be cut short. -/
theorem HasChain.of_le {fewer : Nat} (h : HasChain targets name edges) (hle : fewer ≤ edges) :
    HasChain targets name fewer := by
  obtain ⟨rest, hchain, rfl⟩ := h
  refine ⟨rest.take fewer, ?_, List.length_take_of_le hle⟩
  rw [← List.take_succ_cons]
  exact hchain.take _

theorem hasHeight_iff : HasHeight targets name height ↔
    HasChain targets name height ∧ ¬HasChain targets name (height + 1) := by
  constructor
  · intro h
    exact ⟨h.1, fun hlonger => Nat.not_succ_le_self height (h.2 hlonger)⟩
  · rintro ⟨hchain, hlonger⟩
    exact ⟨hchain, fun edges hedges => Nat.le_of_not_lt fun hlt => hlonger (hedges.of_le hlt)⟩

/-- What is needed has chains that are shorter by one edge at least. -/
theorem HasChain.of_needs (h : HasChain targets b edges) (hab : Needs targets a b) :
    HasChain targets a (edges + 1) := by
  induction hab using Relation.TransGen.head_induction_on with
  | single hab => exact hasChain_succ.2 ⟨_, hab, h⟩
  | head hac _ ih => exact hasChain_succ.2 ⟨_, hac, ih.of_le (Nat.le_succ edges)⟩

theorem HasHeight.not_needs (ha : HasHeight targets a height) (hb : HasHeight targets b height) :
    ¬Needs targets a b :=
  fun hab => (hasHeight_iff.1 ha).2 (hb.1.of_needs hab)

/-- Numbers that fall along every dependency are no smaller than the lengths of chains. -/
theorem HasChain.le_level {level : String → Nat}
    (hlevel : ∀ a b, DependsOn targets a b → level b < level a) (h : HasChain targets name edges) :
    edges ≤ level name := by
  induction edges generalizing name with
  | zero => exact Nat.zero_le _
  | succ edges ih =>
    obtain ⟨b, hdep, hb⟩ := hasChain_succ.1 h
    exact Nat.lt_of_le_of_lt (ih hb) (hlevel name b hdep)

/-- Waves that are the layers of a list of targets. -/
structure IsLayering (targets : List Target) (waves : List (List String)) : Prop where
  nonempty : ∀ wave ∈ waves, wave ≠ []
  /-- Every declared name stands in one of the waves, and once. -/
  once : waves.flatten.Perm (names targets)
  /-- A wave holds the names whose longest chain has as many edges as there are waves before it. -/
  height : ∀ k name, (∃ wave, waves[k]? = some wave ∧ name ∈ wave) ↔
    name ∈ names targets ∧ HasHeight targets name k
  /-- No division into levels that puts every target behind its dependencies has it earlier. -/
  earliest : ∀ level : String → Nat, (∀ a b, DependsOn targets a b → level b < level a) →
    ∀ k wave, waves[k]? = some wave → ∀ name ∈ wave, k ≤ level name
  apart : ∀ wave ∈ waves, ∀ a ∈ wave, ∀ b ∈ wave, ¬Needs targets a b
  /-- The names of a wave stand in the order of declaration. -/
  ordered : ∀ wave ∈ waves, wave.Sublist (names targets)

end Target

namespace Graph

open Target (DependsOn HasChain HasHeight IsLayering Needs Resolved Settled)

variable {graph : Graph} {round : Nat} {built order : List String} {waiting : List Target}

/-- The targets that are not built and miss nothing they depend on, in declaration order. -/
def nextWave (graph : Graph) (built : List String) : List String :=
  Target.names (graph.targets.filter fun target =>
    decide (target.name ∉ built) && isReady built target)

theorem name_mem_nextWave_iff {target : Target} (hmem : target ∈ graph.targets) :
    target.name ∈ graph.nextWave built ↔
      target.name ∉ built ∧ ∀ name ∈ target.dependencies, name ∈ built := by
  unfold nextWave
  simp only [Target.mem_names, List.mem_filter, Bool.and_eq_true, decide_eq_true_eq, isReady_iff]
  constructor
  · rintro ⟨other, ⟨hother, hready⟩, hname⟩
    rwa [← Target.eq_of_name_eq graph.distinct hother hmem hname]
  · intro hready
    exact ⟨target, ⟨hmem, hready⟩, rfl⟩

theorem sublist_nextWave : (graph.nextWave built).Sublist graph.names :=
  List.filter_sublist.map _

theorem exists_of_mem_nextWave {name : String} (h : name ∈ graph.nextWave built) :
    ∃ target ∈ graph.targets, target.name = name :=
  Target.mem_names.1 (sublist_nextWave.subset h)

/-- The rounds that make the waves, one after the other: there is a next round as long as fewer
    targets have been built than are declared, whether or not its wave builds anything. -/
inductive Rounds (graph : Graph) : List String → List (List String) → Prop where
  | done {built : List String} (h : ¬built.length < graph.size) : Rounds graph built []
  | wave {built : List String} {waves : List (List String)} (h : built.length < graph.size)
      (rest : Rounds graph (built ++ graph.nextWave built) waves) :
      Rounds graph built (graph.nextWave built :: waves)

/-- The state before a round: built are the declared names without a chain of as many edges as
    rounds have been made, and the others wait. -/
structure Round (graph : Graph) (round : Nat) (built : List String) (waiting : List Target) :
    Prop where
  built_iff : ∀ name, name ∈ built ↔ name ∈ graph.names ∧ ¬HasChain graph.targets name round
  waits : waiting = graph.targets.filter fun target => decide (target.name ∉ built)
  parts : (built ++ Target.names waiting).Perm graph.names

namespace Round

theorem start (graph : Graph) : Round graph 0 [] graph.targets where
  built_iff name := by
    constructor
    · intro h
      cases h
    · exact fun h => absurd Target.hasChain_zero h.2
  waits := by simp
  parts := .rfl

theorem mem_waiting (h : Round graph round built waiting) {target : Target} :
    target ∈ waiting ↔ target ∈ graph.targets ∧ target.name ∉ built := by
  rw [h.waits, List.mem_filter, decide_eq_true_eq]

theorem ready_eq (h : Round graph round built waiting) :
    Target.names (ready built waiting) = graph.nextWave built := by
  unfold ready nextWave
  rw [h.waits, List.filter_filter]
  simp only [Bool.and_comm]

/-- The next wave holds the names whose longest chain has as many edges as rounds were made. -/
theorem mem_nextWave_iff (hresolved : Resolved graph.targets)
    (h : Round graph round built waiting) {name : String} :
    name ∈ graph.nextWave built ↔ name ∈ graph.names ∧ HasHeight graph.targets name round := by
  rw [Target.hasHeight_iff, Target.hasChain_succ]
  constructor
  · intro hwave
    obtain ⟨target, hmem, rfl⟩ := exists_of_mem_nextWave hwave
    obtain ⟨hunbuilt, hmet⟩ := (name_mem_nextWave_iff hmem).1 hwave
    have hname : target.name ∈ graph.names := Target.mem_names.2 ⟨target, hmem, rfl⟩
    refine ⟨hname, ?_, ?_⟩
    · by_contra hchain
      exact hunbuilt ((h.built_iff _).2 ⟨hname, hchain⟩)
    · rintro ⟨b, hdep, hchain⟩
      obtain ⟨owner, howner, hsame, hlists⟩ := hdep
      rw [Target.eq_of_name_eq graph.distinct howner hmem hsame] at hlists
      exact ((h.built_iff b).1 (hmet b hlists)).2 hchain
  · rintro ⟨hname, hchain, hlonger⟩
    obtain ⟨target, hmem, rfl⟩ := Target.mem_names.1 hname
    refine (name_mem_nextWave_iff hmem).2 ⟨fun hin => ((h.built_iff _).1 hin).2 hchain, ?_⟩
    intro b hlists
    have hdep : DependsOn graph.targets target.name b := ⟨target, hmem, rfl, hlists⟩
    exact (h.built_iff b).2 ⟨hresolved target hmem b hlists, fun hb => hlonger ⟨b, hdep, hb⟩⟩

/-- One round: what was ready is built. -/
theorem next (hresolved : Resolved graph.targets) (h : Round graph round built waiting) :
    Round graph (round + 1) (built ++ graph.nextWave built) (blocked built waiting) where
  built_iff name := by
    rw [List.mem_append, h.built_iff, h.mem_nextWave_iff hresolved, Target.hasHeight_iff,
      ← and_or_left]
    refine and_congr_right fun _ => ⟨fun hshort => ?_, fun hlonger => ?_⟩
    · rcases hshort with hshort | ⟨-, hlonger⟩
      · exact fun hlonger => hshort (hlonger.of_le (Nat.le_succ round))
      · exact hlonger
    · by_cases hchain : HasChain graph.targets name round
      · exact .inr ⟨hchain, hlonger⟩
      · exact .inl hchain
  waits := by
    unfold blocked
    rw [h.waits, List.filter_filter]
    refine List.filter_congr fun target hmem => ?_
    rw [Bool.eq_iff_iff, Bool.and_eq_true, Bool.not_eq_true', decide_eq_true_eq, decide_eq_true_eq,
      List.mem_append, name_mem_nextWave_iff hmem, ← Bool.not_eq_true, isReady_iff]
    tauto
  parts := by
    rw [← h.ready_eq, List.append_assoc]
    refine List.Perm.trans (List.Perm.append_left built ?_) h.parts
    unfold Target.names ready blocked
    rw [← List.map_append]
    exact (List.filter_append_perm (isReady built) waiting).map _

theorem length_lt_size_iff (h : Round graph round built waiting) :
    built.length < graph.size ↔ waiting ≠ [] := by
  have hlength := h.parts.length_eq
  unfold Graph.names Target.names at hlength
  rw [List.length_append, List.length_map, List.length_map] at hlength
  unfold Graph.size
  rw [← hlength, Nat.lt_add_right_iff_pos, List.length_pos_iff]

theorem toWaiting (h : Round graph round built waiting) : Waiting graph built waiting where
  known _ htarget := (h.mem_waiting.1 htarget).1
  covered target hmem := by
    by_cases hbuilt : target.name ∈ built
    · exact .inl hbuilt
    · exact .inr (h.mem_waiting.2 ⟨hmem, hbuilt⟩)

/-- Where everything can be ordered, some waiting target is ready. -/
theorem ready_ne_nil (h : Round graph round built waiting) (horder : Settled graph.targets order)
    (hall : ∀ name ∈ graph.names, name ∈ order) (hwaits : waiting ≠ []) :
    ready built waiting ≠ [] := by
  obtain ⟨first, hfirst⟩ := List.exists_mem_of_ne_nil waiting hwaits
  have hname : first.name ∈ order :=
    hall _ (Target.mem_names.2 ⟨first, (h.mem_waiting.1 hfirst).1, rfl⟩)
  obtain ⟨target, htarget⟩ := h.toWaiting.exists_ready horder ⟨first, hfirst, hname⟩
  exact List.ne_nil_of_mem htarget

/-! ## All rounds -/

/-- The rounds come to an end, with the waves as their result. -/
theorem runs (hresolved : Resolved graph.targets) (h : Round graph round built waiting)
    (horder : Settled graph.targets order) (hall : ∀ name ∈ graph.names, name ∈ order) :
    Rounds graph built (wavesFrom built waiting) := by
  induction built, waiting using wavesFrom.induct generalizing round with
  | case1 built waiting hnone =>
    rw [wavesFrom_nil hnone]
    refine .done fun hmissing => ?_
    exact h.ready_ne_nil horder hall (h.length_lt_size_iff.1 hmissing) hnone
  | case2 built waiting wave hsome =>
    rename_i ih
    have hwave : wave = graph.nextWave built := h.ready_eq
    have hnext := h.next hresolved
    rw [← hwave] at hnext
    have hwaits : waiting ≠ [] := by
      rintro rfl
      exact hsome rfl
    rw [wavesFrom_cons hsome, h.ready_eq]
    refine .wave (h.length_lt_size_iff.2 hwaits) ?_
    rw [← hwave]
    exact ih hnext

/-- The wave that comes after `k` others holds names whose longest chain is longer by `k` edges. -/
theorem height_of_mem (hresolved : Resolved graph.targets) (h : Round graph round built waiting)
    {k : Nat} {wave : List String} (hwave : (wavesFrom built waiting)[k]? = some wave)
    {name : String} (hname : name ∈ wave) : HasHeight graph.targets name (round + k) := by
  induction built, waiting using wavesFrom.induct generalizing round k with
  | case1 built waiting hnone =>
    rw [wavesFrom_nil hnone] at hwave
    cases hwave
  | case2 built waiting first hsome =>
    rename_i ih
    have hfirst : first = graph.nextWave built := h.ready_eq
    have hnext := h.next hresolved
    rw [← hfirst] at hnext
    rw [wavesFrom_cons hsome] at hwave
    cases k with
    | zero =>
      obtain rfl : first = wave := Option.some.inj hwave
      rw [hfirst] at hname
      exact ((h.mem_nextWave_iff hresolved).1 hname).2
    | succ k =>
      have hheight := ih hnext hwave
      rwa [Nat.add_assoc, Nat.add_comm 1 k] at hheight

end Round

theorem ne_nil_of_mem_wavesFrom {wave : List String} (h : wave ∈ wavesFrom built waiting) :
    wave ≠ [] := by
  induction built, waiting using wavesFrom.induct with
  | case1 built waiting hnone =>
    rw [wavesFrom_nil hnone] at h
    cases h
  | case2 built waiting _ hsome ih =>
    rw [wavesFrom_cons hsome] at h
    rcases List.mem_cons.1 h with rfl | h
    · exact fun hnil => hsome (List.map_eq_nil_iff.1 hnil)
    · exact ih h

/-- The waves of a graph that can be ordered are its layers. -/
theorem isLayering_wavesFrom (hresolved : Resolved graph.targets)
    (horder : graph.buildOrder = .ok order) :
    IsLayering graph.targets (wavesFrom [] graph.targets) := by
  have hround := Round.start graph
  have honce : (wavesFrom [] graph.targets).flatten.Perm graph.names :=
    flatten_waves_perm (waves_eq_ok.2 ⟨⟨order, horder⟩, rfl⟩)
  have hheight : ∀ {k : Nat} {wave : List String} {name : String},
      (wavesFrom [] graph.targets)[k]? = some wave → name ∈ wave →
        HasHeight graph.targets name k := by
    intro k wave name hwave hname
    rw [← Nat.zero_add k]
    exact hround.height_of_mem hresolved hwave hname
  refine ⟨fun wave => ne_nil_of_mem_wavesFrom, honce, fun k name => ⟨?_, ?_⟩, ?_, ?_, ?_⟩
  · rintro ⟨wave, hwave, hname⟩
    have hin := List.mem_flatten.2 ⟨wave, List.mem_of_getElem? hwave, hname⟩
    exact ⟨honce.mem_iff.1 hin, hheight hwave hname⟩
  · -- The name stands in some wave, and that wave can only be the one of its height.
    rintro ⟨hname, hk⟩
    obtain ⟨wave, hwave, hin⟩ := List.mem_flatten.1 (honce.mem_iff.2 hname)
    obtain ⟨j, hj⟩ := List.mem_iff_getElem?.1 hwave
    obtain rfl : j = k := (hheight hj hin).unique hk
    exact ⟨wave, hj, hin⟩
  · intro level hlevel k wave hwave name hname
    exact (hheight hwave hname).1.le_level hlevel
  · intro wave hwave a ha b hb
    obtain ⟨k, hk⟩ := List.mem_iff_getElem?.1 hwave
    exact (hheight hk ha).not_needs (hheight hk hb)
  · intro wave hwave
    obtain ⟨p, rfl⟩ := exists_filter_of_mem_wavesFrom hwave
    exact List.filter_sublist.map _

/-! ## The main statement -/

/-- For every accepted list of targets that passes the check, the rounds that make the waves come
    to an end, and their result are the layers of the targets: no wave is empty, every declared
    name stands in one of them, and that is the one whose number is the length of the longest chain
    of dependencies from it. -/
theorem waves_layered {targets : List Target} (h : ofTargets targets = .ok graph)
    (hvalid : graph.check = .ok ()) :
    ∃ waves, graph.waves = .ok waves ∧ graph.Rounds [] waves ∧ IsLayering targets waves := by
  obtain rfl := targets_of_ofTargets h
  have hsound := check_eq_ok_iff.1 hvalid
  obtain ⟨order, horder⟩ := exists_buildOrder_iff.2 hsound
  obtain ⟨hsettled, hall⟩ := settled_buildOrder horder
  refine ⟨_, waves_eq_ok.2 ⟨⟨order, horder⟩, rfl⟩, ?_, isLayering_wavesFrom hsound.1 horder⟩
  exact (Round.start graph).runs hsound.1 hsettled hall

/-- An application that needs a library both directly and through its user interface, and tools
    that need nothing. -/
def workbench : Graph where
  targets := [
    { name := "app", dependencies := ["core", "ui"], path := ⟨"app"⟩ },
    { name := "ui", dependencies := ["core"], path := ⟨"ui"⟩ },
    { name := "core", path := ⟨"core"⟩ },
    { name := "tools", path := ⟨"tools"⟩ }]
  valid := by decide +kernel
  distinct := by decide

/-- The short way to the library does not count: the application waits for its user interface. -/
theorem waves_workbench :
    workbench.waves = .ok [["core", "tools"], ["ui"], ["app"]] ∧
      workbench.Rounds [] [["core", "tools"], ["ui"], ["app"]] ∧
      HasHeight workbench.targets "app" 2 := by
  have hmade : workbench.waves = .ok [["core", "tools"], ["ui"], ["app"]] := by cbv
  have haccepted : ofTargets workbench.targets = .ok workbench := ofTargets_eq_ok_iff.2 rfl
  obtain ⟨waves, hwaves, hrounds, hlayers⟩ := waves_layered haccepted (by cbv)
  obtain rfl := Except.ok.inj (hwaves.symm.trans hmade)
  exact ⟨hmade, hrounds, ((hlayers.height 2 "app").1 ⟨["app"], rfl, by decide⟩).2⟩

end Graph

end PackagePlan
