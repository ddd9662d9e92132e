/-
  What is left of a path below another. Whatever the spelling of the way to a base, the steps
  behind it come out in the shortest spelling (`relativeTo?_along`), and the paths above such a
  one are the shortest spellings of its prefixes (`mem_ancestors`).
-/
import PackagePlan.Proofs.Path.Components
import Mathlib.Data.List.Induction

namespace PackagePlan.Path

theorem startsWith_iff {p base : Path} :
    p.startsWith base = true ↔ base.components <+: p.components := by
  unfold startsWith
  exact List.isPrefixOf_iff_prefix

theorem startsWith_of_relativeTo? {p base q : Path} (h : p.relativeTo? base = some q) :
    base.components <+: p.components := by
  unfold relativeTo? at h
  split at h
  · next hstarts => exact startsWith_iff.1 hstarts
  · cases h

/-! ## Dropping components -/

theorem isVoid_iff {field : List Char} :
    isVoid field = true ↔ Component.ofField? field = none := by
  unfold isVoid
  exact Option.isNone_iff_eq_none

/-- Stretches that are spelled without void ones. -/
def AreFull (fields : List (List Char)) : Prop := ∀ field ∈ fields, isVoid field = false

theorem areFull_render {steps : List Component} (h : ∀ c ∈ steps, c.IsStep) :
    AreFull (steps.map fun c => c.render.toList) := by
  intro field hfield
  obtain ⟨c, hc, rfl⟩ := List.mem_map.1 hfield
  unfold isVoid
  rw [Component.ofField?_render (h c hc)]
  rfl

theorem dropWhile_isVoid {fields : List (List Char)} (h : AreFull fields) :
    fields.dropWhile isVoid = fields := by
  cases fields with
  | nil => rfl
  | cons field rest => rw [List.dropWhile_cons, h field List.mem_cons_self]; rfl

theorem trimVoid_eq {fields : List (List Char)} (h : AreFull fields) :
    trimVoid fields = fields := by
  unfold trimVoid
  rw [dropWhile_isVoid fun field hfield => h field (List.mem_reverse.1 hfield),
    List.reverse_reverse]

theorem dropSteps_eq_drop {fields : List (List Char)} (h : AreFull fields) (n : Nat) :
    dropSteps n fields = fields.drop n := by
  induction fields generalizing n with
  | nil => cases n <;> rfl
  | cons field rest ih =>
    obtain ⟨hfield, hrest⟩ := List.forall_mem_cons.1 h
    cases n with
    | zero => rfl
    | succ n => rw [dropSteps, hfield, if_neg Bool.false_ne_true, ih hrest, List.drop_succ_cons]

/-- Dropping as many components as some stretches have, and more, drops these stretches. -/
theorem dropWhile_dropSteps (before fields : List (List Char)) (k : Nat) :
    (dropSteps ((before.filterMap Component.ofField?).length + k) (before ++ fields)).dropWhile
        isVoid = (dropSteps k fields).dropWhile isVoid := by
  induction before generalizing k with
  | nil => simp
  | cons field rest ih =>
    cases hfield : Component.ofField? field with
    | none =>
      have hvoid : isVoid field = true := isVoid_iff.2 hfield
      rw [List.filterMap_cons_none hfield, List.cons_append]
      cases hn : (rest.filterMap Component.ofField?).length + k with
      | zero =>
        rw [← ih k, hn, dropSteps, dropSteps, List.dropWhile_cons, if_pos hvoid]
      | succ n => rw [dropSteps, if_pos hvoid, ← hn, ih k]
    | some c =>
      have hfull : ¬isVoid field = true := by simp [isVoid, hfield]
      rw [List.filterMap_cons_some hfield, List.length_cons, Nat.add_right_comm,
        List.cons_append, dropSteps, if_neg hfull, ih k]

theorem ofBody_steps {steps : List Component} (h : ∀ c ∈ steps, c.IsStep) :
    ofBody .none (steps.map fun c => c.render.toList) = ofComponents steps := by
  unfold ofBody
  rw [Lead.chars, List.nil_append, ← text_ofComponents h, String.ofList_toList]

/-- Whatever the spelling of a path, the steps behind it come out in the shortest spelling. -/
theorem dropComponents_along (p : Path) {steps : List Component} (hsteps : steps ≠ [])
    (h : ∀ c ∈ steps, c.IsStep) (k : Nat) :
    (p.along steps).dropComponents (p.components.length + k) = ofComponents (steps.drop k) := by
  have hfull : AreFull ((steps.map fun c => c.render.toList).drop k) := fun field hfield =>
    areFull_render h field (List.mem_of_mem_drop hfield)
  have hdrop : ofBody .none ((steps.map fun c => c.render.toList).drop k) =
      ofComponents (steps.drop k) := by
    rw [← List.map_drop, ofBody_steps fun c hc => h c (List.mem_of_mem_drop hc)]
  unfold dropComponents
  by_cases hp : p.text = ""
  · obtain rfl : p = ⟨""⟩ := congrArg Path.mk hp
    rw [← ofComponents_eq, lead_ofComponents h, body_ofComponents hsteps h,
      components_of_empty rfl, List.length_nil, Nat.zero_add]
    split
    · next hk => rw [trimVoid_eq (areFull_render h), ofBody_steps h, hk, List.drop_zero]
    · dsimp only
      rw [show k - (Lead.component? .none).toList.length = k from rfl,
        dropSteps_eq_drop (areFull_render h), dropWhile_isVoid hfull, trimVoid_eq hfull, hdrop]
  · obtain ⟨before, hbody, hbefore⟩ := exists_body_along hp hsteps h
    have hlength : p.components.length = p.lead.component?.toList.length +
        (before.filterMap Component.ofField?).length := by
      rw [hbefore, components_eq, List.length_append]
    have hpos : p.components.length ≠ 0 := mt List.length_eq_zero_iff.1 (components_ne_nil hp)
    rw [if_neg (by omega), lead_along hp h, hbody]
    dsimp only
    rw [show p.components.length + k - p.lead.component?.toList.length =
      (before.filterMap Component.ofField?).length + k by omega, dropWhile_dropSteps,
      dropSteps_eq_drop (areFull_render h), dropWhile_isVoid hfull, trimVoid_eq hfull, hdrop]

/-- A path behind a base, seen from there. -/
theorem relativeTo?_along {p base : Path} {steps : List Component} (hsteps : steps ≠ [])
    (h : ∀ c ∈ steps, c.IsStep) {k : Nat} (hk : k ≤ steps.length)
    (hbase : base.components = p.components ++ steps.take k) :
    (p.along steps).relativeTo? base = some (ofComponents (steps.drop k)) := by
  have hstarts : (p.along steps).startsWith base = true := by
    rw [startsWith_iff, hbase, components_along p h]
    exact (List.prefix_append_right_inj _).2 (List.take_prefix k steps)
  unfold relativeTo?
  rw [if_pos hstarts, hbase, List.length_append, List.length_take_of_le hk,
    dropComponents_along p hsteps h]

/-! ## The paths above a path -/

theorem parent?_ofComponents {steps : List Component} {c : Component}
    (h : ∀ d ∈ steps ++ [c], d.IsStep) :
    (ofComponents (steps ++ [c])).parent? = some (ofComponents steps) := by
  have hsteps : ∀ d ∈ steps, d.IsStep := fun d hd => h d (List.mem_append_left _ hd)
  unfold parent?
  rw [body_ofComponents (List.append_ne_nil_of_right_ne_nil _ (List.cons_ne_nil _ _)) h,
    lead_ofComponents h, trimVoid_eq (areFull_render h)]
  split
  · next hnil => simp at hnil
  · rw [List.map_append, List.map_singleton, List.dropLast_concat,
      trimVoid_eq (areFull_render hsteps), ofBody_steps hsteps]

theorem mem_climb {steps : List Component} (h : ∀ c ∈ steps, c.IsStep) {q : Path} :
    q ∈ climb steps.length (ofComponents steps) ↔
      ∃ above, above <+: steps ∧ q = ofComponents above := by
  induction steps using List.reverseRecOn with
  | nil => simp [climb]
  | append_singleton steps c ih =>
    have hsteps : ∀ d ∈ steps, d.IsStep := fun d hd => h d (List.mem_append_left _ hd)
    rw [List.length_append, List.length_singleton, climb, parent?_ofComponents h, List.mem_cons]
    dsimp only
    rw [ih hsteps]
    constructor
    · rintro (rfl | ⟨above, habove, rfl⟩)
      · exact ⟨_, List.prefix_refl _, rfl⟩
      · exact ⟨above, habove.trans (List.prefix_append _ _), rfl⟩
    · rintro ⟨above, habove, rfl⟩
      rcases List.prefix_concat_iff.1 habove with rfl | habove
      · exact .inl rfl
      · exact .inr ⟨above, habove, rfl⟩

/-- The paths above a path in the shortest spelling are those of the prefixes of its steps. -/
theorem mem_ancestors {steps : List Component} (h : ∀ c ∈ steps, c.IsStep) {q : Path} :
    q ∈ (ofComponents steps).ancestors ↔ ∃ above, above <+: steps ∧ q = ofComponents above := by
  unfold ancestors
  rw [components_ofComponents h]
  exact mem_climb h

end PackagePlan.Path
