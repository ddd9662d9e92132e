/-
  The paths above a path, in every spelling. A parent has the components of the path without the
  last one (`exists_step_of_parent?`), and what has no parent is a root or an empty path
  (`components_of_parent?_eq_none`). So the walk upwards takes no more steps than the path has
  components and then is at its end (`ascends_ancestors`), and there is no other walk
  (`Ascends.eq`).
-/
import PackagePlan.Proofs.Path.Relative

namespace PackagePlan.Path

/-! ## One step up -/

/-- What trimming leaves at the end is no void stretch. -/
theorem isVoid_getLast_trimVoid (fields : List (List Char)) (h : trimVoid fields ≠ []) :
    isVoid ((trimVoid fields).getLast h) = false := by
  have hhead := List.head?_dropWhile_not isVoid fields.reverse
  have hlast : (fields.reverse.dropWhile isVoid).head? = some ((trimVoid fields).getLast h) := by
    rw [← List.getLast?_eq_some_getLast h]
    unfold trimVoid
    rw [List.getLast?_reverse]
  rwa [hlast] at hhead

/-- A parent is the path without its last component. -/
theorem exists_step_of_parent? {p above : Path} (h : p.parent? = some above) :
    ∃ step, step ≠ .root ∧ p.components = above.components ++ [step] := by
  have hinner : p.inner = (trimVoid p.body).filterMap Component.ofField? :=
    (filterMap_trimVoid p.body).symm
  unfold parent? at h
  split at h
  · next hnil =>
    rw [hnil] at hinner
    split at h
    · next hlead =>
      obtain rfl := Option.some.inj h
      refine ⟨.current, nofun, ?_⟩
      rw [components_eq, hlead, hinner, components_of_empty rfl]
      rfl
    · cases h
  · next hfull =>
    obtain rfl := Option.some.inj h
    have hlast := isVoid_getLast_trimVoid p.body hfull
    have hsplit := List.dropLast_concat_getLast hfull
    generalize (trimVoid p.body).getLast hfull = last at hlast hsplit
    obtain ⟨step, hstep⟩ := Option.ne_none_iff_exists'.1 fun hnone =>
      Bool.false_ne_true (hlast.symm.trans (isVoid_iff.2 hnone))
    -- Behind what is left of the stretches stand void ones, the last full one, and void ones again.
    obtain ⟨voids, hbody⟩ := exists_eq_trimVoid p.body
    obtain ⟨between, hfront⟩ := exists_eq_trimVoid (trimVoid p.body).dropLast
    have hprefix : p.body =
        trimVoid (trimVoid p.body).dropLast ++ (between ++ [last] ++ voids) := by
      conv_lhs => rw [hbody, ← hsplit, hfront]
      simp only [List.append_assoc]
    rw [← hsplit, List.filterMap_append, List.filterMap_cons_some hstep] at hinner
    refine ⟨step, ?_, ?_⟩
    · rintro rfl
      have hmem : Component.root ∈ p.inner := hinner ▸ List.mem_concat_self
      exact isStep_of_mem_inner hmem
    · rw [components_ofBody hprefix, filterMap_trimVoid, components_eq, hinner, List.append_assoc]
      rfl

theorem components_of_parent?_eq_none {p : Path} (h : p.parent? = none) :
    p.components = [] ∨ p.components = [.root] := by
  have hinner : p.inner = (trimVoid p.body).filterMap Component.ofField? :=
    (filterMap_trimVoid p.body).symm
  unfold parent? at h
  split at h
  · next hnil =>
    rw [hnil] at hinner
    rw [components_eq, hinner]
    cases hlead : p.lead with
    | root => exact .inr rfl
    | current => rw [if_pos hlead] at h; cases h
    | none => exact .inl rfl
  · cases h

/-! ## The walk upwards -/

/-- The paths from one path upwards, nearest first: each is the parent of the one before and has its
components but for the last, and the last one is a root or an empty path. -/
inductive Ascends : Path → List Path → Prop
  | top {p : Path} (hroot : p.components = [] ∨ p.components = [.root]) : Ascends p [p]
  | up {p above : Path} {step : Component} {ways : List Path} (hparent : p.parent? = some above)
      (hstep : step ≠ .root) (hcomponents : p.components = above.components ++ [step])
      (hrest : Ascends above ways) : Ascends p (p :: ways)

theorem ascends_climb {n : Nat} {p : Path} (h : p.components.length ≤ n) :
    Ascends p (climb n p) := by
  -- A step up takes one component away, so the fuel lasts as long as there are some.
  induction n generalizing p with
  | zero => exact .top (.inl (List.length_eq_zero_iff.1 (Nat.le_zero.1 h)))
  | succ n ih =>
    unfold climb
    split
    · next above hparent =>
      obtain ⟨step, hstep, hcomponents⟩ := exists_step_of_parent? hparent
      refine .up hparent hstep hcomponents (ih ?_)
      rw [hcomponents, List.length_append, List.length_singleton] at h
      exact Nat.le_of_succ_le_succ h
    · next hnone => exact .top (components_of_parent?_eq_none hnone)

theorem ascends_ancestors (p : Path) : p.Ascends p.ancestors := ascends_climb (Nat.le_refl _)

/-- A `.` in front is a component, and the walk goes on to the empty path. -/
example : (⟨"./src//lib/"⟩ : Path).ancestors =
    [⟨"./src//lib/"⟩, ⟨"./src"⟩, ⟨"."⟩, ⟨""⟩] := by
  decide +kernel

/-- A path that goes on by a step from another one is not the top. -/
theorem not_top {p above : Path} {step : Component} (hstep : step ≠ .root)
    (hcomponents : p.components = above.components ++ [step]) :
    ¬(p.components = [] ∨ p.components = [.root]) := by
  rw [hcomponents]
  rintro (hnil | hroot)
  · exact List.concat_ne_nil _ _ hnil
  · have hlast := congrArg List.getLast? hroot
    rw [List.getLast?_concat] at hlast
    exact hstep (Option.some.inj hlast)

/-- There is one way up. -/
theorem Ascends.eq {p : Path} {ways others : List Path} (h : p.Ascends ways)
    (h' : p.Ascends others) : ways = others := by
  induction h generalizing others with
  | top hroot =>
    cases h' with
    | top => rfl
    | up _ hstep hcomponents _ => exact absurd hroot (not_top hstep hcomponents)
  | up hparent hstep hcomponents _ ih =>
    cases h' with
    | top hroot => exact absurd hroot (not_top hstep hcomponents)
    | up hparent' _ _ hrest =>
      obtain rfl := Option.some.inj (hparent.symm.trans hparent')
      rw [ih hrest]

end PackagePlan.Path
