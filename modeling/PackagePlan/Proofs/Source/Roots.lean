/-
  The places of a valid target. Its source roots and its public headers directory come out in the
  shortest spelling, below the names of the target directory (`exists_of_mem_sourceRoots`,
  `exists_of_publicHeadersDir?`).
-/
import PackagePlan.Proofs.Path.Components
import PackagePlan.Target

namespace PackagePlan

namespace Path

theorem isName_of_mem_inner {p : Path} (h : p.isContained = true) {c : Component}
    (hc : c ∈ p.inner) : c.IsName := by
  have hstep := isStep_of_mem_inner hc
  have hdescends : c.descends = true :=
    List.all_eq_true.1 h c (by rw [components_eq]; exact List.mem_append_right _ hc)
  cases c with
  | root => exact hstep
  | current => exact hstep
  | parent => cases hdescends
  | name text => exact hstep

theorem isAbsolute_of_isContained {p : Path} (h : p.isContained = true) :
    p.isAbsolute = false := by
  rw [Bool.eq_false_iff]
  intro habsolute
  have hroot : Component.root ∈ p.components := by
    rw [components_eq, isAbsolute_iff.1 habsolute]
    exact List.mem_cons_self
  exact Bool.false_ne_true (List.all_eq_true.1 h _ hroot)

theorem filter_inner (p : Path) : p.inner.filter (· ≠ .current) = p.inner := by
  rw [List.filter_eq_self]
  rintro c hc
  have hstep := isStep_of_mem_inner hc
  cases c <;> first | exact hstep.elim | rfl

theorem filter_components {p : Path} (h : p.isAbsolute = false) :
    p.components.filter (· ≠ .current) = p.inner := by
  rw [components_eq, List.filter_append, filter_inner]
  cases hlead : p.lead with
  | root => rw [isAbsolute_iff.2 hlead] at h; cases h
  | current => rfl
  | none => rfl

/-- The normal form of a relative path keeps what stands behind its lead. -/
theorem normalize_eq {p : Path} (h : p.isAbsolute = false) :
    p.normalize = ofComponents p.inner := by
  unfold normalize
  rw [filter_components h]

/-- A member of a directory in normal form: the names of the directory, then those of the member. -/
theorem normalize_join {p q : Path} (hp : p.isAbsolute = false) (hfull : p.text ≠ "")
    (hq : q.isAbsolute = false) :
    (p.join q).normalize = ofComponents (p.inner ++ q.inner) := by
  rw [normalize_eq ((isAbsolute_join hfull hq).trans hp), inner_join hfull hq]

end Path

namespace Target

open PackagePlan.Path

variable {target : Target}

/-- What a declaration without fault is. -/
theorem isValid_iff : target.isValid = true ↔
    target.name.isEmpty = false ∧ target.path.normalize.isEmpty = false ∧
      target.path.isContained = true ∧ (∀ p ∈ target.memberPaths, p.isContained = true) ∧
      target.dependencies.any String.isEmpty = false := by
  have hmembers : (∀ p ∈ target.memberPaths, p.isContained = true) ↔
      target.memberPaths.find? (!·.isContained) = none := by
    simp [List.find?_eq_none]
  rw [hmembers]
  unfold isValid fault?
  cases target.name.isEmpty with
  | true => simp
  | false =>
  cases target.path.normalize.isEmpty with
  | true => simp
  | false =>
  cases target.path.isContained with
  | false => simp
  | true =>
  cases target.memberPaths.find? (!·.isContained) with
  | some p => simp
  | none => cases target.dependencies.any String.isEmpty <;> simp

theorem paths_of_isValid (h : target.isValid = true) :
    target.path.normalize.isEmpty = false ∧ target.path.isContained = true ∧
      ∀ p ∈ target.memberPaths, p.isContained = true := by
  obtain ⟨-, hnormal, hpath, hmembers, -⟩ := isValid_iff.1 h
  exact ⟨hnormal, hpath, hmembers⟩

theorem isContained_of_mem_sources (h : target.isValid = true) {source : Path}
    (hsource : source ∈ target.sources) : source.isContained = true :=
  (paths_of_isValid h).2.2 source (by simp [memberPaths, hsource])

theorem isContained_of_mem_searchPaths (h : target.isValid = true) {path : Path}
    (hpath : path ∈ target.headerSearchPaths) : path.isContained = true :=
  (paths_of_isValid h).2.2 path (by simp [memberPaths, hpath])

theorem isContained_of_publicHeaders (h : target.isValid = true) {dir : Path}
    (hdir : target.publicHeaders = some dir) : dir.isContained = true :=
  (paths_of_isValid h).2.2 dir (by simp [memberPaths, hdir])

theorem isContained_path (h : target.isValid = true) : target.path.isContained = true :=
  (paths_of_isValid h).2.1

theorem isAbsolute_path (h : target.isValid = true) : target.path.isAbsolute = false :=
  isAbsolute_of_isContained (isContained_path h)

theorem inner_path_ne_nil (h : target.isValid = true) : target.path.inner ≠ [] := by
  intro hnil
  have hnormal := (paths_of_isValid h).1
  rw [normalize_eq (isAbsolute_path h), hnil] at hnormal
  cases hnormal

theorem path_text_ne_empty (h : target.isValid = true) : target.path.text ≠ "" := by
  intro hempty
  refine inner_path_ne_nil h ?_
  have hnil := components_of_empty hempty
  rw [components_eq, List.append_eq_nil_iff] at hnil
  exact hnil.2

theorem isName_of_mem_inner_path (h : target.isValid = true) {c : Component}
    (hc : c ∈ target.path.inner) : c.IsName :=
  isName_of_mem_inner (isContained_path h) hc

/-- Every source root goes on by names from the target directory. -/
theorem exists_of_mem_sourceRoots (h : target.isValid = true) {sourceRoot : Path}
    (hroot : sourceRoot ∈ target.sourceRoots) :
    ∃ more, (∀ c ∈ more, c.IsName) ∧ sourceRoot = ofComponents (target.path.inner ++ more) := by
  have hsteps : ∀ c ∈ target.path.inner, c.IsStep := fun _ => isStep_of_mem_inner
  have hbase := normalize_eq (isAbsolute_path h)
  unfold sourceRoots at hroot
  dsimp only at hroot
  rw [hbase] at hroot
  split at hroot
  · obtain rfl := List.mem_singleton.1 hroot
    exact ⟨[], List.forall_mem_nil _, by rw [List.append_nil]⟩
  · obtain ⟨source, hsource, rfl⟩ := List.mem_map.1 hroot
    have hcontained := isContained_of_mem_sources h hsource
    refine ⟨source.inner, fun _ => isName_of_mem_inner hcontained, ?_⟩
    rw [normalize_join (isAbsolute_ofComponents hsteps)
      (ofComponents_text_ne_empty (inner_path_ne_nil h) hsteps)
      (isAbsolute_of_isContained hcontained), inner_ofComponents hsteps]

/-- The public headers directory goes on by names from the target directory. -/
theorem exists_of_publicHeadersDir? (h : target.isValid = true) {dir : Path}
    (hdir : target.publicHeadersDir? = some dir) :
    ∃ more, (∀ c ∈ more, c.IsName) ∧ dir = ofComponents (target.path.inner ++ more) := by
  obtain ⟨declared, hdeclared, rfl⟩ := Option.map_eq_some_iff.1 hdir
  have hcontained := isContained_of_publicHeaders h hdeclared
  refine ⟨declared.inner, fun _ => isName_of_mem_inner hcontained, ?_⟩
  exact normalize_join (isAbsolute_path h) (path_text_ne_empty h)
    (isAbsolute_of_isContained hcontained)

end Target

end PackagePlan
