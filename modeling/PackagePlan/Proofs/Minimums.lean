/-
  What a table of minimums asks of a platform. A family has several names, so a table can give it
  several versions; of these the one under the last name, in the order of the names, is asked for
  and the others are dropped. So a platform that passes is as new as every version given for its
  family exactly where the last one is the greatest (`check_iff_last`), and an older platform slips
  through where it is not (`check_loses_minimum`).
-/
import PackagePlan.Proofs.Constraints
import PackagePlan.Proofs.Variant

namespace PackagePlan

namespace PlatformConstraints

/-- The versions that written requirements give for a family, under any of its names, in order. -/
def stated (entries : List (String × String)) (os : OsFamily) : List Version :=
  entries.filterMap fun entry =>
    if OsFamily.parse? entry.1 = some os then Version.parse? entry.2 else none

theorem stated_cons {name text : String} {family os : OsFamily} {version : Version}
    {rest : List (String × String)} (hname : OsFamily.parse? name = some family)
    (htext : Version.parse? text = some version) :
    stated ((name, text) :: rest) os =
      if os = family then version :: stated rest os else stated rest os := by
  by_cases hos : os = family
  · simp [stated, hname, htext, hos]
  · simp [stated, hname, hos, Ne.symm hos]

theorem minimum?_require {c : PlatformConstraints} {os other : OsFamily} {minimum : Version} :
    (c.require os minimum).minimum? other =
      if other = os then some minimum else c.minimum? other :=
  Catalog.get?_insert

theorem requireAll_cons_eq_ok {c done : PlatformConstraints} {name text : String}
    {rest : List (String × String)} :
    c.requireAll ((name, text) :: rest) = .ok done ↔
      ∃ os version, OsFamily.parse? name = some os ∧ Version.parse? text = some version ∧
        (c.require os version).requireAll rest = .ok done := by
  rw [requireAll, Outcome.bind_eq_ok]
  simp only [Outcome.bind_eq_ok, OsFamily.parse_eq_ok_iff, Version.parse_eq_ok_iff]
  constructor
  · rintro ⟨os, hos, version, hversion, hrest⟩
    exact ⟨os, version, hos, hversion, hrest⟩
  · rintro ⟨os, version, hos, hversion, hrest⟩
    exact ⟨os, hos, version, hversion, hrest⟩

/-- Of the versions that are given for a family the last one is its minimum, and what was asked
    for before stands where none is given. -/
theorem minimum?_requireAll {c done : PlatformConstraints} {entries : List (String × String)}
    (h : c.requireAll entries = .ok done) (os : OsFamily) :
    done.minimum? os = (stated entries os).getLast?.or (c.minimum? os) := by
  induction entries generalizing c with
  | nil =>
    cases h
    rfl
  | cons entry rest ih =>
    obtain ⟨family, version, hfamily, hversion, hrest⟩ := requireAll_cons_eq_ok.1 h
    rw [ih hrest, stated_cons hfamily hversion, minimum?_require]
    by_cases hos : os = family
    · rw [if_pos hos, if_pos hos, List.getLast?_cons]
      cases (stated rest os).getLast? <;> rfl
    · rw [if_neg hos, if_neg hos]

theorem minimum?_ofTable {table : Catalog String String} {c : PlatformConstraints}
    (h : ofTable table = .ok c) (os : OsFamily) :
    c.minimum? os = (stated table.entries os).getLast? := by
  have hnone : ({} : PlatformConstraints).minimum? os = none := rfl
  rw [minimum?_requireAll h, hnone, Option.or_none]

theorem check_eq_ok_iff {c : PlatformConstraints} {platform : Platform} :
    c.check platform = .ok () ↔ ∀ minimum ∈ c.minimum? platform.os, minimum ≤ platform.version := by
  unfold check
  cases c.minimum? platform.os with
  | none => simp
  | some minimum =>
    simp [← Version.not_lt]

/-! ## Two names of one family -/

/-- The minimum under the second name is the lower one. -/
def lowered : Catalog String String := .ofList [("macos", "14.0"), ("osx", "12.0")]

/-- The minimum under the second name is the higher one. -/
def raised : Catalog String String := .ofList [(" macOS ", "12.0"), ("ios", "17"), ("macos", "14.0")]

/-! ## The main statement -/

/-- A platform passes exactly if it is as new as the last version that the table gives for its
    family. So it passes exactly if it is as new as all of them, for every version of a family,
    where the last one is the greatest, and only there. -/
theorem check_iff_last {table : Catalog String String} {c : PlatformConstraints}
    (h : ofTable table = .ok c) :
    (∀ platform, c.check platform = .ok () ↔
      ∀ last ∈ (stated table.entries platform.os).getLast?, last ≤ platform.version) ∧
    ∀ os, (∀ version, c.check ⟨os, version⟩ = .ok () ↔
        ∀ minimum ∈ stated table.entries os, minimum ≤ version) ↔
      ∀ last ∈ (stated table.entries os).getLast?,
        ∀ minimum ∈ stated table.entries os, minimum ≤ last := by
  have hlast : ∀ platform, c.check platform = .ok () ↔
      ∀ last ∈ (stated table.entries platform.os).getLast?, last ≤ platform.version := by
    intro platform
    rw [check_eq_ok_iff, minimum?_ofTable h]
  refine ⟨hlast, fun os => ⟨fun hall last hend => ?_, fun hgreatest version => ?_⟩⟩
  · -- A platform just as new as the last version passes, so no version is above it.
    refine (hall last).1 ((hlast ⟨os, last⟩).2 fun other hother => ?_)
    obtain rfl : last = other := Option.some.inj (hend.symm.trans hother)
    exact Version.le_refl last
  · rw [hlast]
    constructor
    · intro hpass minimum hminimum
      obtain ⟨last, hend⟩ := List.getLast?_isSome.2 (List.ne_nil_of_mem hminimum) |>
        Option.isSome_iff_exists.1
      exact Version.le_trans (hgreatest last hend minimum hminimum) (hpass last hend)
    · intro hpass last hend
      exact hpass last (List.mem_of_getLast? hend)

/-- With the higher minimum under the last name of macOS none is lost. -/
theorem check_raised : ∃ c, ofTable raised = .ok c ∧
    stated raised.entries .macos = [⟨12, 0, 0⟩, ⟨14, 0, 0⟩] ∧
    ∀ version, c.check ⟨.macos, version⟩ = .ok () ↔
      ∀ minimum ∈ stated raised.entries .macos, minimum ≤ version := by
  obtain ⟨c, hc⟩ : ∃ c, ofTable raised = .ok c := Outcome.isOk_iff.1 (by decide +kernel)
  have hstated : stated raised.entries .macos = [⟨12, 0, 0⟩, ⟨14, 0, 0⟩] := by decide +kernel
  exact ⟨c, hc, hstated, ((check_iff_last hc).2 .macos).2 (by rw [hstated]; decide)⟩

/-- With the lower minimum under the last name of macOS the higher one is lost: macOS 13 passes
    where the table asks for 14. -/
theorem check_loses_minimum : ∃ c, ofTable lowered = .ok c ∧
    c.check ⟨.macos, ⟨13, 0, 0⟩⟩ = .ok () ∧
    ∃ minimum ∈ stated lowered.entries .macos, ¬minimum ≤ ⟨13, 0, 0⟩ :=
  ⟨({} : PlatformConstraints).require .macos ⟨12, 0, 0⟩, by decide +kernel, by decide +kernel,
    ⟨14, 0, 0⟩, by decide +kernel, by decide +kernel⟩

end PlatformConstraints

end PackagePlan
