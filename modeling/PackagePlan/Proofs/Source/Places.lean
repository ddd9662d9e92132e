/-
  The places that a target names lie in its own directory. The check of a target looks at each
  declared path as it is written, and what is used are paths that are joined and brought into the
  shortest spelling. Both count the same steps, so every place of a valid target goes on by names
  from the target directory (`isInside_of_names`), and a path that would leave the directory it
  starts from is refused wherever it stands. Main statement: `places_inside`.
-/
import PackagePlan.Proofs.Source.Spelling

namespace PackagePlan

open PackagePlan.Path

/-! ## Paths that leave a directory -/

/-- Whether a component leads one directory down. -/
def Component.leadsDown : Component → Bool
  | name _ => true
  | root | current | parent => false

namespace Path

/-- Followed step by step, the path goes above the directory that it starts from: at some point it
has gone up more often than down. -/
def ClimbsOut (p : Path) : Prop :=
  ∃ front, front <+: p.components ∧ front.countP Component.leadsDown < front.count .parent

theorem parent_mem_of_climbsOut {p : Path} (h : p.ClimbsOut) : .parent ∈ p.components := by
  obtain ⟨front, hfront, hcount⟩ := h
  exact hfront.subset (List.count_pos_iff.1 (Nat.zero_lt_of_lt hcount))

/-- A contained path has no `..` at all, not even one that a name makes up for. -/
theorem parent_not_mem_of_isContained {p : Path} (h : p.isContained = true) :
    .parent ∉ p.components := by
  intro hparent
  exact Bool.false_ne_true (List.all_eq_true.1 h _ hparent)

/-- A path lies in a directory or is the directory: it is there, relative, without `.` and `..`, and
begins as the directory does. -/
structure IsInside (p base : Path) : Prop where
  nonempty : p.text ≠ ""
  relative : p.isAbsolute = false
  current : .current ∉ p.components
  parent : .parent ∉ p.components
  below : base.components <+: p.components

end Path

namespace Target

variable {target : Target}

/-- Every path that a target declares. -/
def declaredPaths (target : Target) : List Path :=
  target.path :: (target.sources ++ target.headerSearchPaths ++ target.publicHeaders.toList)

theorem isContained_of_mem_declaredPaths (h : target.isValid = true) {p : Path}
    (hp : p ∈ target.declaredPaths) : p.isContained = true := by
  rcases List.mem_cons.1 hp with rfl | hmember
  · exact isContained_path h
  · exact (paths_of_isValid h).2.2 p hmember

theorem isValid_eq_false {p : Path} (hp : p ∈ target.declaredPaths)
    (hout : p.isAbsolute = true ∨ p.ClimbsOut ∨ .parent ∈ p.components) :
    target.isValid = false := by
  rw [Bool.eq_false_iff]
  intro hvalid
  have hcontained := isContained_of_mem_declaredPaths hvalid hp
  have hnone := parent_not_mem_of_isContained hcontained
  rcases hout with habsolute | hclimbs | hparent
  · rw [isAbsolute_of_isContained hcontained] at habsolute
    cases habsolute
  · exact hnone (parent_mem_of_climbsOut hclimbs)
  · exact hnone hparent

/-! ## Places of a valid target -/

theorem components_normalize_path (h : target.isValid = true) :
    target.path.normalize.components = target.path.inner := by
  rw [components_normalize, undotted_eq_inner (isContained_path h)]

/-- What goes on by names from the target directory lies in it. -/
theorem isInside_of_names (h : target.isValid = true) {p : Path} {more : List Component}
    (hmore : ∀ c ∈ more, c.IsName) (hp : p.components = target.path.inner ++ more) :
    p.IsInside target.path.normalize := by
  have hplain : p.IsPlain := by
    unfold IsPlain
    rw [hp]
    exact List.forall_mem_append.2 ⟨fun _ => isName_of_mem_inner_path h, hmore⟩
  refine ⟨fun hempty => ?_, isAbsolute_of_steps hplain.isStep, fun hmem => hplain _ hmem,
    fun hmem => hplain _ hmem, ?_⟩
  · rw [components_of_empty hempty] at hp
    exact inner_path_ne_nil h (List.append_eq_nil_iff.1 hp.symm).1
  · rw [components_normalize_path h, hp]
    exact List.prefix_append _ _

theorem isInside_ofComponents (h : target.isValid = true) {more : List Component}
    (hmore : ∀ c ∈ more, c.IsName) :
    (ofComponents (target.path.inner ++ more)).IsInside target.path.normalize := by
  refine isInside_of_names h hmore (components_ofComponents ?_)
  exact List.forall_mem_append.2 ⟨fun _ => isStep_of_mem_inner, fun c hc => (hmore c hc).isStep⟩

theorem isInside_of_mem_sourceRoots (h : target.isValid = true) {p : Path}
    (hp : p ∈ target.sourceRoots) : p.IsInside target.path.normalize := by
  obtain ⟨more, hmore, rfl⟩ := exists_of_mem_sourceRoots h hp
  exact isInside_ofComponents h hmore

theorem isInside_of_publicHeadersDir? (h : target.isValid = true) {p : Path}
    (hp : target.publicHeadersDir? = some p) : p.IsInside target.path.normalize := by
  obtain ⟨more, hmore, rfl⟩ := exists_of_publicHeadersDir? h hp
  exact isInside_ofComponents h hmore

/-- A search path is joined behind the target directory, also when it names the directory itself
and is empty in the shortest spelling. -/
theorem isInside_of_mem_privateSearchPaths (h : target.isValid = true) {search : Path}
    (hsearch : search ∈ target.privateSearchPaths) :
    (target.path.normalize.join search).IsInside target.path.normalize := by
  obtain ⟨declared, hdeclared, rfl⟩ := List.mem_map.1 hsearch
  have hcontained := isContained_of_mem_searchPaths h hdeclared
  have hnames : ∀ c ∈ declared.inner, c.IsName := fun _ => isName_of_mem_inner hcontained
  have hplain : declared.normalize.components = declared.inner := by
    rw [components_normalize, undotted_eq_inner hcontained]
  refine isInside_of_names h hnames ?_
  rw [components_join_plain _ (by rwa [IsPlain, hplain]), hplain, components_normalize_path h]

end Target

/-! ## A greenhouse

Its paths are spelled with dots and separators that do not count. -/

namespace Greenhouse

def target : Target where
  name := "greenhouse"
  path := ⟨"./garden//glass/."⟩
  sources := [⟨"beds/./north/"⟩, ⟨"."⟩, ⟨""⟩]
  publicHeaders := some ⟨"./labels"⟩
  headerSearchPaths := [⟨""⟩, ⟨"tools//."⟩]

/-- The same with a source that goes down once and up twice. -/
def unwalled : Target := { target with sources := [⟨"beds"⟩, ⟨"./beds/../../street"⟩] }

/-- The same with public headers at an absolute path. -/
def rented : Target := { target with publicHeaders := some ⟨"/labels"⟩ }

end Greenhouse

namespace Target

/-! ## The main statement -/

/-- The source roots of a valid target, its public headers directory and the private search paths
behind its directory all lie in that directory. A target is not valid if a path that it declares is
absolute or climbs out, and neither if there is a `..` in it that a name makes up for. -/
theorem places_inside (target : Target) :
    (target.isValid = true →
      (∀ p ∈ target.sourceRoots, p.IsInside target.path.normalize) ∧
      (∀ p, target.publicHeadersDir? = some p → p.IsInside target.path.normalize) ∧
      ∀ search ∈ target.privateSearchPaths,
        (target.path.normalize.join search).IsInside target.path.normalize) ∧
    ∀ p ∈ target.declaredPaths,
      p.isAbsolute = true ∨ p.ClimbsOut ∨ .parent ∈ p.components → target.isValid = false := by
  refine ⟨fun hvalid => ⟨?_, ?_, ?_⟩, fun p hp => isValid_eq_false hp⟩
  · exact fun p => isInside_of_mem_sourceRoots hvalid
  · exact fun p => isInside_of_publicHeadersDir? hvalid
  · exact fun search => isInside_of_mem_privateSearchPaths hvalid

/-- The greenhouse keeps to the garden, and the other two are refused. -/
theorem places_inside_greenhouse :
    Greenhouse.target.isValid = true ∧
    (⟨"garden/glass/beds/north"⟩ : Path).IsInside ⟨"garden/glass"⟩ ∧
    (⟨"garden/glass/labels"⟩ : Path).IsInside ⟨"garden/glass"⟩ ∧
    (⟨"garden/glass/"⟩ : Path).IsInside ⟨"garden/glass"⟩ ∧
    Greenhouse.unwalled.isValid = false ∧ Greenhouse.rented.isValid = false := by
  have hvalid : Greenhouse.target.isValid = true := by decide +kernel
  have hbase : Greenhouse.target.path.normalize = ⟨"garden/glass"⟩ := by decide +kernel
  obtain ⟨hroots, hheaders, hsearch⟩ := Greenhouse.target.places_inside.1 hvalid
  rw [hbase] at hroots hheaders hsearch
  have hclimbs : (⟨"./beds/../../street"⟩ : Path).ClimbsOut :=
    ⟨[.current, .name "beds", .parent, .parent], by decide +kernel, by decide⟩
  exact ⟨hvalid, hroots _ (by decide +kernel), hheaders _ (by decide +kernel),
    hsearch ⟨""⟩ (by decide +kernel),
    Greenhouse.unwalled.places_inside.2 _ (by decide +kernel) (.inr (.inl hclimbs)),
    Greenhouse.rented.places_inside.2 ⟨"/labels"⟩ (by decide +kernel) (.inl (by decide +kernel))⟩

end Target

end PackagePlan
