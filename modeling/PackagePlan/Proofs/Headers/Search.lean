/-
  Where a compilation looks for headers. Of the directories that are asked for, each is kept at its
  first place (`Path.Firsts`, `distinct_firsts`). The list of a target depends on its own record and on
  those of its closure (`includeDirs_of_closure`), so that it does not change while targets that it
  does not need are registered.
-/
import Mathlib.Data.List.Basic
import PackagePlan.Proofs.Headers.Registration

namespace PackagePlan

namespace Path

/-- The paths of a list at their first places: a path is left out if it stands further in front. It
grows at the end, as the list is gone through. -/
inductive Firsts : List Path → List Path → Prop where
  | nil : Firsts [] []
  | keep {paths firsts : List Path} {p : Path} (before : Firsts paths firsts)
      (fresh : p.memOf paths = false) : Firsts (paths ++ [p]) (firsts ++ [p])
  | skip {paths firsts : List Path} {p : Path} (before : Firsts paths firsts)
      (repeats : p.memOf paths = true) : Firsts (paths ++ [p]) firsts

theorem memOf_append {p : Path} {paths more : List Path} :
    p.memOf (paths ++ more) = (p.memOf paths || p.memOf more) := by
  unfold memOf
  exact List.any_append

theorem memOf_of_mem {p : Path} {paths : List Path} (h : p ∈ paths) : p.memOf paths = true :=
  memOf_iff.2 ⟨p, h, rfl⟩

namespace Firsts

variable {paths firsts : List Path}

theorem sublist (h : Firsts paths firsts) : firsts.Sublist paths := by
  induction h with
  | nil => exact .slnil
  | keep _ _ ih => exact ih.append (List.Sublist.refl _)
  | skip _ _ ih => exact ih.trans (List.sublist_append_left _ _)

/-- No path is lost. -/
theorem memOf_eq (h : Firsts paths firsts) (q : Path) : q.memOf firsts = q.memOf paths := by
  induction h with
  | nil => rfl
  | keep _ _ ih => rw [memOf_append, memOf_append, ih]
  | skip _ hrepeats ih =>
    rw [memOf_append, ih, eq_comm, Bool.or_eq_left_iff_imp]
    intro hlast
    obtain ⟨r, hr, hsame⟩ := memOf_iff.1 hlast
    obtain rfl := List.mem_singleton.1 hr
    obtain ⟨other, hother, hkept⟩ := memOf_iff.1 hrepeats
    exact memOf_iff.2 ⟨other, hother, hsame.trans hkept⟩

theorem apart (h : Firsts paths firsts) :
    firsts.Pairwise fun p q => p.components ≠ q.components := by
  induction h with
  | nil => exact .nil
  | keep before hfresh ih =>
    refine List.pairwise_append.2 ⟨ih, List.pairwise_singleton _ _, fun q hq last hlast hsame => ?_⟩
    obtain rfl := List.mem_singleton.1 hlast
    rw [memOf_iff.2 ⟨q, before.sublist.subset hq, hsame.symm⟩] at hfresh
    cases hfresh
  | skip _ _ ih => exact ih

end Firsts

end Path

namespace HeaderIndex

open PackagePlan.Path

theorem distinct_concat (paths : List Path) (p : Path) :
    distinct (paths ++ [p]) =
      if p.memOf (distinct paths) then distinct paths else distinct paths ++ [p] := by
  unfold distinct
  rw [List.foldl_append, List.foldl_cons, List.foldl_nil]

theorem distinct_firsts (paths : List Path) : Firsts paths (distinct paths) := by
  induction paths using List.reverseRecOn with
  | nil => exact .nil
  | append_singleton paths p ih =>
    rw [distinct_concat, ih.memOf_eq]
    split
    · next hrepeats => exact .skip ih hrepeats
    · next hfresh => exact .keep ih (Bool.eq_false_iff.2 hfresh)

variable {index other : HeaderIndex} {name : String} {own : HeaderSurface}

theorem includeDirs_eq (hown : index.surface? name = some own) :
    index.includeDirs name = .ok (distinct (own.searchDirs ++ own.publicDir.toList ++
      own.closure.filterMap fun member => (index.surface? member).bind (·.publicDir))) := by
  unfold includeDirs
  rw [hown]

/-- What is registered of a target and its closure decides where its compilation looks. -/
theorem includeDirs_of_closure (hown : index.surface? name = some own)
    (hsame : other.surface? name = index.surface? name)
    (hclosure : ∀ member ∈ own.closure, other.surface? member = index.surface? member) :
    other.includeDirs name = index.includeDirs name := by
  have hdirs : (own.closure.filterMap fun member => (other.surface? member).bind (·.publicDir)) =
      own.closure.filterMap fun member => (index.surface? member).bind (·.publicDir) :=
    List.filterMap_congr fun member hmember => by rw [hclosure member hmember]
  rw [includeDirs_eq hown, includeDirs_eq (hsame.trans hown), hdirs]

end HeaderIndex

end PackagePlan
