/-
  The order of paths. It is total and two paths are level exactly when their components agree, so
  a list in ascending order holds no path twice, and `Path.sorted` lists a set of paths: it
  ascends (`sorted_ascending`), invents nothing (`mem_of_mem_sorted`) and keeps every path up to
  its spelling (`memOf_sorted`). Searching such a list by halves misses nothing (`foundIn_iff`).
-/
import PackagePlan.Path

namespace PackagePlan

namespace Component

theorem compare_eq (a b : Component) :
    compare a b =
      (compare a.sortKey.1 b.sortKey.1).then (compare a.sortKey.2 b.sortKey.2) := rfl

theorem eq_of_sortKey_eq {a b : Component} (h : a.sortKey = b.sortKey) : a = b := by
  cases a <;> cases b <;> simp_all [sortKey]

instance : Std.TransOrd Component :=
  inferInstanceAs (Std.TransCmp (compareLex (compareOn fun a : Component => a.sortKey.1)
    (compareOn fun a : Component => a.sortKey.2)))

instance : Std.LawfulEqOrd Component where
  compare_self := Std.ReflCmp.compare_self
  eq_of_compare {a b} h := by
    rw [compare_eq, Ordering.then_eq_eq] at h
    exact eq_of_sortKey_eq (Prod.ext (Std.LawfulEqCmp.eq_of_compare h.1)
      (Std.LawfulEqCmp.eq_of_compare h.2))

end Component

namespace Path

/-- No path is repeated and each is below those after it. -/
def Ascending (paths : List Path) : Prop := paths.Pairwise fun p q => p.order q = .lt

theorem order_eq_iff {p q : Path} : p.order q = .eq ↔ p.components = q.components := by
  unfold order
  exact Std.LawfulEqOrd.compare_eq_iff_eq

theorem same_iff {p q : Path} : p.same q = true ↔ p.components = q.components := by
  unfold same
  rw [beq_iff_eq]

theorem memOf_iff {p : Path} {paths : List Path} :
    p.memOf paths = true ↔ ∃ q ∈ paths, p.components = q.components := by
  unfold memOf
  simp only [List.any_eq_true, same_iff]

theorem order_congr_left {p q r : Path} (h : p.components = q.components) :
    p.order r = q.order r := by
  unfold order
  rw [h]

theorem order_trans {p q r : Path} (hpq : p.order q = .lt) (hqr : q.order r = .lt) :
    p.order r = .lt := by
  unfold order at *
  exact Std.TransCmp.lt_trans hpq hqr

theorem order_lt_of_gt {p q : Path} (h : p.order q = .gt) : q.order p = .lt := by
  unfold order at *
  exact Std.OrientedCmp.lt_of_gt h

/-! ## Placing one path -/

theorem mem_of_mem_place {p q : Path} {paths : List Path} (h : q ∈ p.place paths) :
    q = p ∨ q ∈ paths := by
  induction paths with
  | nil => exact .inl (List.mem_singleton.1 h)
  | cons first rest ih =>
    rw [place] at h
    split at h
    · exact List.mem_cons.1 h
    · exact .inr h
    · rcases List.mem_cons.1 h with rfl | h
      · exact .inr (List.mem_cons_self ..)
      · exact (ih h).imp_right (List.mem_cons_of_mem _)

theorem mem_place_of_mem {p q : Path} {paths : List Path} (h : q ∈ paths) : q ∈ p.place paths := by
  induction paths with
  | nil => cases h
  | cons first rest ih =>
    rw [place]
    split
    · exact List.mem_cons_of_mem _ h
    · exact h
    · rcases List.mem_cons.1 h with rfl | h
      · exact List.mem_cons_self ..
      · exact List.mem_cons_of_mem _ (ih h)

/-- The placed path is there, if not in its own spelling then in another. -/
theorem memOf_place_self (p : Path) (paths : List Path) : p.memOf (p.place paths) = true := by
  induction paths with
  | nil => exact memOf_iff.2 ⟨p, List.mem_singleton_self p, rfl⟩
  | cons first rest ih =>
    rw [place]
    split
    · exact memOf_iff.2 ⟨p, List.mem_cons_self .., rfl⟩
    · next heq => exact memOf_iff.2 ⟨first, List.mem_cons_self .., order_eq_iff.1 heq⟩
    · obtain ⟨q, hq, hcomponents⟩ := memOf_iff.1 ih
      exact memOf_iff.2 ⟨q, List.mem_cons_of_mem _ hq, hcomponents⟩

theorem place_ascending {p : Path} {paths : List Path} (h : Ascending paths) :
    Ascending (p.place paths) := by
  induction paths with
  | nil => exact List.pairwise_singleton _ p
  | cons first rest ih =>
    obtain ⟨hbelow, hrest⟩ := List.pairwise_cons.1 h
    rw [place]
    split
    · next hlt =>
      refine List.pairwise_cons.2 ⟨fun q hq => ?_, h⟩
      rcases List.mem_cons.1 hq with rfl | hq
      · exact hlt
      · exact order_trans hlt (hbelow q hq)
    · exact h
    · next hgt =>
      refine List.pairwise_cons.2 ⟨fun q hq => ?_, ih hrest⟩
      rcases mem_of_mem_place hq with rfl | hq
      · exact order_lt_of_gt hgt
      · exact hbelow q hq

/-! ## Sorting -/

/-- What sorting keeps at every path that it places. -/
theorem foldl_place {paths done : List Path} (h : Ascending done) :
    Ascending (paths.foldl (fun done p => p.place done) done) ∧
      (∀ q ∈ paths.foldl (fun done p => p.place done) done, q ∈ paths ∨ q ∈ done) ∧
      (∀ q ∈ done, q ∈ paths.foldl (fun done p => p.place done) done) ∧
      ∀ q ∈ paths, q.memOf (paths.foldl (fun done p => p.place done) done) = true := by
  induction paths generalizing done with
  | nil => exact ⟨h, fun _ hq => .inr hq, fun _ hq => hq, fun _ hq => nomatch hq⟩
  | cons p rest ih =>
    obtain ⟨hascending, honly, hkept, hall⟩ := ih (place_ascending (p := p) h)
    refine ⟨hascending, fun q hq => ?_, fun q hq => hkept q (mem_place_of_mem hq), ?_⟩
    · rcases honly q hq with hq | hq
      · exact .inl (List.mem_cons_of_mem _ hq)
      · rcases mem_of_mem_place hq with rfl | hq
        · exact .inl (List.mem_cons_self ..)
        · exact .inr hq
    · refine List.forall_mem_cons.2 ⟨?_, hall⟩
      obtain ⟨q, hq, hcomponents⟩ := memOf_iff.1 (memOf_place_self p done)
      exact memOf_iff.2 ⟨q, hkept q hq, hcomponents⟩

theorem sorted_ascending (paths : List Path) : Ascending (sorted paths) :=
  (foldl_place List.Pairwise.nil).1

theorem mem_of_mem_sorted {p : Path} {paths : List Path} (h : p ∈ sorted paths) : p ∈ paths := by
  rcases (foldl_place List.Pairwise.nil).2.1 p h with h | h
  · exact h
  · cases h

theorem memOf_sorted_of_mem {p : Path} {paths : List Path} (h : p ∈ paths) :
    p.memOf (sorted paths) = true :=
  (foldl_place List.Pairwise.nil).2.2.2 p h

theorem memOf_sorted {p : Path} {paths : List Path} :
    p.memOf (sorted paths) = true ↔ p.memOf paths = true := by
  rw [memOf_iff, memOf_iff]
  constructor
  · rintro ⟨q, hq, hcomponents⟩
    exact ⟨q, mem_of_mem_sorted hq, hcomponents⟩
  · rintro ⟨q, hq, hcomponents⟩
    obtain ⟨r, hr, hsame⟩ := memOf_iff.1 (memOf_sorted_of_mem hq)
    exact ⟨r, hr, hcomponents.trans hsame⟩

/-! ## Searching -/

theorem not_mem_above {p middle : Path} {above : List Path} (h : Ascending (middle :: above))
    (hgt : middle.order p = .gt) {q : Path} (hq : q ∈ middle :: above) :
    p.components ≠ q.components := by
  intro hsame
  rcases List.mem_cons.1 hq with rfl | hq
  · rw [order_eq_iff.2 hsame.symm] at hgt
    cases hgt
  · have hlt := order_trans (order_lt_of_gt hgt) ((List.pairwise_cons.1 h).1 q hq)
    rw [order_eq_iff.2 hsame] at hlt
    cases hlt

theorem not_mem_before {p middle : Path} {before above : List Path}
    (h : Ascending (before ++ middle :: above)) (hgt : middle.order p ≠ .gt) {q : Path}
    (hq : q ∈ before) : p.components ≠ q.components := by
  intro hsame
  have hlt : q.order middle = .lt :=
    (List.pairwise_append.1 h).2.2 q hq middle List.mem_cons_self
  rw [← order_congr_left hsame] at hlt
  exact hgt (by unfold order at *; exact Std.OrientedCmp.gt_of_lt hlt)

/-- Searching an ascending list by halves misses nothing. -/
theorem foundIn_iff {p : Path} {paths : List Path} (h : Ascending paths) :
    p.foundIn paths = true ↔ p.memOf paths = true := by
  fun_induction foundIn p paths with
  | case1 paths hhalf =>
    have hnil : paths = [] := by
      have hlength := List.drop_eq_nil_iff.1 hhalf
      exact List.length_eq_zero_iff.1 (by omega)
    rw [hnil]
    simp [memOf]
  | case2 paths middle above hhalf hone =>
    rw [hone] at hhalf
    obtain rfl : paths = middle :: above := hhalf
    obtain rfl : above = [] := by simpa using hone
    rw [beq_iff_eq, order_eq_iff, memOf_iff]
    simp [eq_comm]
  | case3 paths middle above hhalf hone hgt ih =>
    have hsplit : paths = paths.take (paths.length / 2) ++ middle :: above := by
      rw [← hhalf, List.take_append_drop]
    have hupper : Ascending (middle :: above) := by
      rw [← hhalf]
      exact h.sublist (List.drop_sublist _ _)
    rw [ih (h.sublist (List.take_sublist _ _)), memOf_iff, memOf_iff]
    constructor
    · rintro ⟨q, hq, hsame⟩
      exact ⟨q, List.mem_of_mem_take hq, hsame⟩
    · rintro ⟨q, hq, hsame⟩
      rw [hsplit] at hq
      rcases List.mem_append.1 hq with hq | hq
      · exact ⟨q, List.take_subset_take_left _ (by omega) hq, hsame⟩
      · exact absurd hsame (not_mem_above hupper (by simpa using hgt) hq)
  | case4 paths middle above hhalf hone hgt ih =>
    have hsplit : paths = paths.take (paths.length / 2) ++ middle :: above := by
      rw [← hhalf, List.take_append_drop]
    have hupper : Ascending (middle :: above) := by
      rw [← hhalf]
      exact h.sublist (List.drop_sublist _ _)
    rw [ih hupper, memOf_iff, memOf_iff]
    constructor
    · rintro ⟨q, hq, hsame⟩
      exact ⟨q, by rw [hsplit]; exact List.mem_append_right _ hq, hsame⟩
    · rintro ⟨q, hq, hsame⟩
      rw [hsplit] at h hq
      rcases List.mem_append.1 hq with hq | hq
      · exact absurd hsame (not_mem_before h (by simpa using hgt) hq)
      · exact ⟨q, hq, hsame⟩

end Path

end PackagePlan
