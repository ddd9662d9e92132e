/-
  Platform constraints and their written form. A family has at most one minimum, which is the one
  that is looked up (`minimum?_eq_some_iff`). Every family is read back from its identifier, so
  reading the table of the constraints gives them back (`ofTable_toTable`), although the table is
  in the order of the identifiers and the constraints in that of the families.
-/
import PackagePlan.Constraints
import PackagePlan.Proofs.Catalog
import PackagePlan.Proofs.Version
import Mathlib.Data.List.Nodup
import Mathlib.Data.List.Perm.Basic
import Mathlib.Data.Set.List

namespace PackagePlan

namespace OsFamily

theorem parse?_key (os : OsFamily) : parse? os.key = some os := by
  cases os <;> decide +kernel

theorem parse_key (os : OsFamily) : OsFamily.parse os.key = .ok os := by
  unfold OsFamily.parse
  rw [parse?_key]

theorem key_injective {a b : OsFamily} (h : a.key = b.key) : a = b := by
  have hparse := parse?_key a
  rw [h, parse?_key b] at hparse
  exact (Option.some.inj hparse).symm

instance : Std.LawfulEqOrd OsFamily where
  eq_of_compare {a b} h := by
    rw [compare_eq_compare_rank] at h
    have hrank := Std.LawfulEqCmp.eq_of_compare h
    cases a <;> cases b <;> first | rfl | cases hrank

theorem parse_eq_ok_iff {text : String} {os : OsFamily} :
    OsFamily.parse text = .ok os ↔ parse? text = some os := by
  unfold OsFamily.parse
  cases parse? text <;> simp

end OsFamily

namespace Version

theorem render_injective {a b : Version} (h : a.render = b.render) : a = b := by
  have hparse := parse?_render a
  rw [h, parse?_render b] at hparse
  exact (Option.some.inj hparse).symm

theorem parse_eq_ok_iff {text : String} {version : Version} :
    Version.parse text = .ok version ↔ parse? text = some version := by
  unfold Version.parse
  cases parse? text <;> simp

theorem parse_render (v : Version) : Version.parse v.render = .ok v :=
  parse_eq_ok_iff.2 (parse?_render v)

end Version

namespace PlatformConstraints

theorem minimum?_eq_some_iff {c : PlatformConstraints} {os : OsFamily} {minimum : Version} :
    c.minimum? os = some minimum ↔ (os, minimum) ∈ c.toList :=
  Catalog.get?_eq_some_iff

/-- A requirement as it is written. -/
def written (minimum : OsFamily × Version) : String × String :=
  (minimum.1.key, minimum.2.render)

theorem written_injective {a b : OsFamily × Version} (h : written a = written b) : a = b :=
  Prod.ext (OsFamily.key_injective (congrArg Prod.fst h))
    (Version.render_injective (congrArg Prod.snd h))

/-- Written requirements are read and added one after the other. -/
theorem requireAll_written (c : PlatformConstraints) (minimums : List (OsFamily × Version)) :
    c.requireAll (minimums.map written) =
      .ok ⟨minimums.foldl (fun done m => done.insert m.1 m.2) c.minimums⟩ := by
  induction minimums generalizing c with
  | nil => rfl
  | cons first rest ih =>
    show (do
      let os ← OsFamily.parse first.1.key
      let version ← Version.parse first.2.render
      (c.require os version).requireAll (rest.map written)) = _
    rw [OsFamily.parse_key, Version.parse_render]
    exact ih (c.require first.1 first.2)

theorem mem_toTable {c : PlatformConstraints} {entry : String × String} :
    entry ∈ c.toTable.entries ↔ entry ∈ c.toList.map written := by
  refine Catalog.mem_ofList ?_
  have hkeys : (c.toList.map written).map (·.1) = (c.toList.map (·.1)).map OsFamily.key := by
    simp [written]
  rw [show (fun entry : OsFamily × Version => (entry.1.key, entry.2.render)) = written from rfl,
    hkeys]
  exact List.Nodup.map (fun _ _ => OsFamily.key_injective) c.minimums.nodup_keys

/-- The table of the constraints lists their requirements as they are written, in some order. -/
theorem exists_toTable (c : PlatformConstraints) :
    ∃ minimums : List (OsFamily × Version), c.toTable.entries = minimums.map written ∧
      minimums.Perm c.toList := by
  have hmem : ∀ entry, entry ∈ c.toTable.entries ↔ entry ∈ c.toList.map written :=
    fun _ => mem_toTable
  have hlist : (c.toList.map written).Nodup :=
    (List.nodup_map_iff fun _ _ => written_injective).2 (List.Nodup.of_map _ c.minimums.nodup_keys)
  have hperm : c.toTable.entries.Perm (c.toList.map written) :=
    (List.perm_ext_iff_of_nodup (List.Nodup.of_map _ c.toTable.nodup_keys) hlist).2 hmem
  have hrange : c.toTable.entries ∈ Set.range (List.map written) := by
    rw [Set.range_list_map]
    intro entry hentry
    obtain ⟨minimum, -, heq⟩ := List.mem_map.1 ((hmem entry).1 hentry)
    exact ⟨minimum, heq⟩
  obtain ⟨minimums, hminimums⟩ := hrange
  refine ⟨minimums, hminimums.symm, ?_⟩
  rw [← hminimums] at hperm
  exact (List.map_perm_map_iff fun _ _ => written_injective).1 hperm

/-- Reading the table of the constraints gives them back. -/
theorem ofTable_toTable (c : PlatformConstraints) : ofTable c.toTable = .ok c := by
  obtain ⟨minimums, htable, hperm⟩ := exists_toTable c
  unfold ofTable
  rw [htable, requireAll_written]
  have hall : Catalog.ofList minimums = c.minimums := Catalog.ofList_of_perm hperm
  exact congrArg (fun all => Except.ok (PlatformConstraints.mk all)) hall

end PlatformConstraints

end PackagePlan
