/-
  The dependency relation between declared targets, and what it means for an order to respect it.
  The relation is stated on the list of targets alone, so that it can be spoken of before there is
  a graph. Main statement: in a settled order everything a target needs stands before the target
  (`Settled.mem_before_of_needs`), and only a package without unresolved names and without cycles
  has an order that settles all of its targets (`resolved_of_settled`, `acyclic_of_settled`).
-/
import Mathlib.Data.List.Chain
import Mathlib.Data.List.Nodup
import Mathlib.Logic.Relation
import PackagePlan.Graph.Closure
import PackagePlan.Graph.Waves

namespace PackagePlan

namespace Target

/-- The name of a target and what it lists. -/
def edges (target : Target) : String × List String := (target.name, target.dependencies)

/-- The target of name `a` lists `b` among its dependencies. -/
def DependsOn (targets : List Target) (a b : String) : Prop :=
  ∃ target ∈ targets, target.name = a ∧ b ∈ target.dependencies

/-- The target of name `a` depends on `b`, directly or through others. -/
def Needs (targets : List Target) : String → String → Prop :=
  Relation.TransGen (DependsOn targets)

/-- Every name that a target depends on is declared. -/
def Resolved (targets : List Target) : Prop :=
  ∀ target ∈ targets, ∀ name ∈ target.dependencies, name ∈ names targets

/-- No target needs itself. -/
def Acyclic (targets : List Target) : Prop :=
  ∀ name ∈ names targets, ¬ Needs targets name name

/-- Names that each depend on the next, the last one on the first, and none of them twice. -/
structure IsCycle (targets : List Target) (cycle : List String) : Prop where
  chain : cycle.IsChain (DependsOn targets)
  closes : ∃ first ∈ cycle.head?, ∃ last ∈ cycle.getLast?, DependsOn targets last first
  nodup : cycle.Nodup

/-- An order in which every name is declared, stands once, and comes after all that its target
    depends on. It grows at the end, as the walk and the waves grow it. -/
inductive Settled (targets : List Target) : List String → Prop where
  | nil : Settled targets []
  | snoc {order : List String} {target : Target} (before : Settled targets order)
      (declared : target ∈ targets) (fresh : target.name ∉ order)
      (met : ∀ name ∈ target.dependencies, name ∈ order) :
      Settled targets (order ++ [target.name])

variable {targets : List Target}

/-! ## Names and targets -/

theorem mem_names {name : String} :
    name ∈ names targets ↔ ∃ target ∈ targets, target.name = name := by
  unfold names
  rw [List.mem_map]

/-- Where names are distinct, a name leads to one target. -/
theorem eq_of_name_eq (h : (names targets).Nodup) {a b : Target} (ha : a ∈ targets)
    (hb : b ∈ targets) (hname : a.name = b.name) : a = b :=
  List.inj_on_of_nodup_map h ha hb hname

theorem find?_eq_some_iff (h : (names targets).Nodup) {name : String} {target : Target} :
    targets.find? (·.name == name) = some target ↔ target ∈ targets ∧ target.name = name := by
  constructor
  · intro hfind
    exact ⟨List.mem_of_find?_eq_some hfind, by simpa using List.find?_some hfind⟩
  · rintro ⟨hmem, rfl⟩
    have hsome : (targets.find? (·.name == target.name)).isSome :=
      List.find?_isSome.2 ⟨target, hmem, by simp⟩
    obtain ⟨other, hother⟩ := Option.isSome_iff_exists.1 hsome
    have hname : other.name = target.name := by simpa using List.find?_some hother
    rw [hother, eq_of_name_eq h (List.mem_of_find?_eq_some hother) hmem hname]

theorem DependsOn.declared {a b : String} (h : DependsOn targets a b) : a ∈ names targets := by
  obtain ⟨target, hmem, hname, _⟩ := h
  exact mem_names.2 ⟨target, hmem, hname⟩

theorem resolved_iff : Resolved targets ↔ ∀ a b, DependsOn targets a b → b ∈ names targets := by
  constructor
  · intro h a b hab
    obtain ⟨target, hmem, -, hdep⟩ := hab
    exact h target hmem b hdep
  · intro h target hmem name hname
    exact h target.name name ⟨target, hmem, rfl, hname⟩

theorem Needs.declared {a b : String} (h : Needs targets a b) : a ∈ names targets := by
  induction h using Relation.TransGen.head_induction_on with
  | single h => exact h.declared
  | head h _ _ => exact h.declared

theorem IsCycle.needs {cycle : List String} (h : IsCycle targets cycle) :
    ∃ name, Needs targets name name := by
  obtain ⟨first, hfirst, last, hlast, hclose⟩ := h.closes
  refine ⟨first, ?_⟩
  cases cycle with
  | nil => cases hfirst
  | cons head rest =>
    obtain rfl : head = first := by simpa using hfirst
    rw [List.getLast?_eq_some_getLast (List.cons_ne_nil head rest)] at hlast
    have hway := List.relationReflTransGen_of_exists_isChain_cons rest h.chain
      (Option.mem_some.1 hlast)
    exact Relation.TransGen.tail' hway hclose

/-! ## Settled orders -/

namespace Settled

theorem nodup {order : List String} (h : Settled targets order) : order.Nodup := by
  induction h with
  | nil => exact List.nodup_nil
  | snoc _ _ fresh _ ih =>
    rw [← List.concat_eq_append]
    exact ih.concat fresh

theorem declared {order : List String} (h : Settled targets order) :
    ∀ name ∈ order, name ∈ names targets := by
  induction h with
  | nil => intro name hname; cases hname
  | snoc _ declared _ _ ih =>
    intro name hname
    rcases List.mem_append.1 hname with hname | hname
    · exact ih name hname
    · rw [List.mem_singleton.1 hname]
      exact mem_names.2 ⟨_, declared, rfl⟩

/-- What a target depends on directly stands before it. -/
theorem mem_before (hd : (names targets).Nodup) {order : List String} (h : Settled targets order) :
    ∀ {pre post : List String} {a b : String}, order = pre ++ a :: post →
      DependsOn targets a b → b ∈ pre := by
  induction h with
  | nil => intro pre post a b hsplit _; simp at hsplit
  | snoc _ declared _ met ih =>
    intro pre post a b hsplit hab
    rcases List.eq_nil_or_concat post with rfl | ⟨post, last, rfl⟩
    · -- `a` is the name added last, and all that its target lists was there before
      obtain ⟨rfl, hlast⟩ := List.append_inj' hsplit rfl
      obtain rfl : _ = a := by simpa using hlast
      obtain ⟨target, hmem, hname, hdep⟩ := hab
      rw [eq_of_name_eq hd hmem declared hname] at hdep
      exact met b hdep
    · rw [List.concat_eq_append, ← List.cons_append, ← List.append_assoc] at hsplit
      exact ih (List.append_inj' hsplit rfl).1 hab

/-- Everything a target needs stands before it. -/
theorem mem_before_of_needs (hd : (names targets).Nodup) {order : List String}
    (h : Settled targets order) {a b : String} (hab : Needs targets a b) :
    ∀ {pre post : List String}, order = pre ++ a :: post → b ∈ pre := by
  induction hab using Relation.TransGen.head_induction_on with
  | single hab => exact fun hsplit => h.mem_before hd hsplit hab
  | head hac _ ih =>
    intro pre post hsplit
    obtain ⟨front, back, rfl⟩ := List.append_of_mem (h.mem_before hd hsplit hac)
    rw [List.append_assoc, List.cons_append] at hsplit
    exact List.mem_append_left _ (ih hsplit)

end Settled

/-- An order that settles every target leaves no name unresolved. -/
theorem resolved_of_settled (hd : (names targets).Nodup) {order : List String}
    (h : Settled targets order) (hall : ∀ name ∈ names targets, name ∈ order) :
    Resolved targets := by
  intro target hmem name hname
  obtain ⟨pre, post, hsplit⟩ := List.append_of_mem (hall _ (mem_names.2 ⟨target, hmem, rfl⟩))
  have hbefore := h.mem_before hd hsplit ⟨target, hmem, rfl, hname⟩
  exact h.declared name (hsplit ▸ List.mem_append_left _ hbefore)

/-- An order that settles every target leaves no cycle. -/
theorem acyclic_of_settled (hd : (names targets).Nodup) {order : List String}
    (h : Settled targets order) (hall : ∀ name ∈ names targets, name ∈ order) :
    Acyclic targets := by
  intro name hname hcycle
  obtain ⟨pre, post, hsplit⟩ := List.append_of_mem (hall name hname)
  have hbefore := h.mem_before_of_needs hd hcycle hsplit
  have hnodup := h.nodup
  rw [hsplit] at hnodup
  exact (List.nodup_append.1 hnodup).2.2 name hbefore name (List.mem_cons_self ..) rfl

end Target

end PackagePlan
