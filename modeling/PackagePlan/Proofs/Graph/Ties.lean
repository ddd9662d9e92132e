/-
  Ties between targets that depend on nothing. Nothing forces an order on two of them, and the walk
  puts the one first that it meets first. `MeetsFirst` says which one that is, by the dependencies
  alone: on the way down, the first listed name that is or needs one of the two decides. So they
  keep the order of declaration where no target declared before them needs the later one, but not
  where a dependency list names them the other way round (`crossed_against_declaration`). Main
  statement: `leaf_before_iff_meetsFirst`.
-/
import PackagePlan.Proofs.Graph.Order

namespace PackagePlan

namespace Target

variable {targets : List Target} {x y name other : String}
  {rest names order front back : List String}

/-- A declared target that depends on nothing. -/
def IsLeaf (targets : List Target) (name : String) : Prop :=
  ∃ target ∈ targets, target.name = name ∧ target.dependencies = []

/-- The one name is the other, or needs it. -/
def Reaches (targets : List Target) : String → String → Prop :=
  Relation.ReflTransGen (DependsOn targets)

/-- The name is one of the two, or needs one of them. -/
def Meets (targets : List Target) (x y name : String) : Prop :=
  Reaches targets name x ∨ Reaches targets name y

/-- Going down from a list of names, at each step to the first one that is or needs one of two
    leaves, ends at `x` and not at `y`. -/
inductive MeetsFirst (targets : List Target) (x y : String) : List String → Prop where
  | here {rest : List String} : MeetsFirst targets x y (x :: rest)
  | down {target : Target} {rest : List String} (declared : target ∈ targets)
      (h : MeetsFirst targets x y target.dependencies) :
      MeetsFirst targets x y (target.name :: rest)
  | past {name : String} {rest : List String} (clear : ¬Meets targets x y name)
      (h : MeetsFirst targets x y rest) : MeetsFirst targets x y (name :: rest)

/-- The one of two names that stands first in a list. -/
def firstOf? (x y : String) (order : List String) : Option String :=
  order.find? fun name => decide (name = x ∨ name = y)

theorem IsLeaf.dependencies_eq (hd : (Target.names targets).Nodup) {target : Target}
    (h : IsLeaf targets target.name) (hmem : target ∈ targets) : target.dependencies = [] := by
  obtain ⟨leaf, hleaf, hname, hnone⟩ := h
  rw [← eq_of_name_eq hd hleaf hmem hname]
  exact hnone

/-! ## Meeting one of two names -/

theorem Meets.of_dependsOn (hdep : DependsOn targets name other) (h : Meets targets x y other) :
    Meets targets x y name :=
  h.imp (.head hdep) (.head hdep)

theorem MeetsFirst.exists_meets (h : MeetsFirst targets x y names) :
    ∃ name ∈ names, Meets targets x y name := by
  induction h with
  | here => exact ⟨x, List.mem_cons_self, .inl .refl⟩
  | @down target _ declared _ ih =>
    obtain ⟨other, hlists, hmeets⟩ := ih
    exact ⟨target.name, List.mem_cons_self, hmeets.of_dependsOn ⟨target, declared, rfl, hlists⟩⟩
  | past _ _ ih =>
    obtain ⟨other, hother, hmeets⟩ := ih
    exact ⟨other, List.mem_cons_of_mem _ hother, hmeets⟩

theorem not_meetsFirst_nil : ¬MeetsFirst targets x y [] := nofun

/-- A name that meets neither of the two is passed over. -/
theorem meetsFirst_cons_of_clear (hclear : ¬Meets targets x y name) :
    MeetsFirst targets x y (name :: rest) ↔ MeetsFirst targets x y rest := by
  constructor
  · intro h
    cases h with
    | here => exact absurd (.inl .refl) hclear
    | @down target _ declared h =>
      obtain ⟨other, hlists, hmeets⟩ := h.exists_meets
      exact absurd (hmeets.of_dependsOn ⟨target, declared, rfl, hlists⟩) hclear
    | past _ h => exact h
  · exact .past hclear

/-- A name that meets one of the two decides. -/
theorem meetsFirst_cons_of_meets (hd : (Target.names targets).Nodup) {target : Target}
    (hmem : target ∈ targets) (hmeets : Meets targets x y target.name) :
    MeetsFirst targets x y (target.name :: rest) ↔
      target.name = x ∨ MeetsFirst targets x y target.dependencies := by
  constructor
  · intro h
    generalize hname : target.name = name at h
    cases h with
    | here => exact .inl rfl
    | @down other _ declared h =>
      obtain rfl := eq_of_name_eq hd hmem declared hname
      exact .inr h
    | past clear _ => exact absurd (hname ▸ hmeets) clear
  · rintro (rfl | h)
    · exact .here
    · exact .down hmem h

/-! ## The first of two names in a list -/

theorem firstOf?_append_of_clear (hx : x ∉ front) (hy : y ∉ front) :
    firstOf? x y (front ++ back) = firstOf? x y back := by
  have hnone : firstOf? x y front = none := by
    refine List.find?_eq_none.2 fun name hname => ?_
    rw [decide_eq_true_eq]
    rintro (rfl | rfl)
    · exact hx hname
    · exact hy hname
  unfold firstOf? at hnone ⊢
  rw [List.find?_append, hnone, Option.none_or]

theorem firstOf?_append_of_mem (h : x ∈ front ∨ y ∈ front) :
    firstOf? x y (front ++ back) = firstOf? x y front := by
  have hsome : (firstOf? x y front).isSome = true := by
    refine List.find?_isSome.2 ?_
    rcases h with h | h
    · exact ⟨x, h, by simp⟩
    · exact ⟨y, h, by simp⟩
  unfold firstOf? at hsome ⊢
  rw [List.find?_append, Option.or_of_isSome hsome]

theorem firstOf?_cons_left : firstOf? x y (x :: rest) = some x :=
  List.find?_cons_of_pos (by simp)

theorem firstOf?_cons_right : firstOf? x y (y :: rest) = some y :=
  List.find?_cons_of_pos (by simp)

theorem firstOf?_cons_of_ne (hx : name ≠ x) (hy : name ≠ y) :
    firstOf? x y (name :: rest) = firstOf? x y rest :=
  List.find?_cons_of_neg (by simp [hx, hy])

theorem firstOf?_of_mem (hx : x ∈ order) (hy : y ∉ order) : firstOf? x y order = some x := by
  induction order with
  | nil => cases hx
  | cons name rest ih =>
    obtain ⟨hyname, hyrest⟩ := not_or.1 (mt List.mem_cons.2 hy)
    by_cases hxname : name = x
    · rw [hxname, firstOf?_cons_left]
    · rw [firstOf?_cons_of_ne hxname (Ne.symm hyname)]
      exact ih (List.mem_of_ne_of_mem (Ne.symm hxname) hx) hyrest

/-- Of two names in a list without repetition, the one that is found first stands in front. -/
theorem pair_sublist_iff (hnodup : order.Nodup) (hne : x ≠ y) (hy : y ∈ order) :
    [x, y].Sublist order ↔ firstOf? x y order = some x := by
  induction order with
  | nil => cases hy
  | cons name rest ih =>
    obtain ⟨hfresh, hrest⟩ := List.nodup_cons.1 hnodup
    have hskip : name ≠ x → ([x, y].Sublist (name :: rest) ↔ [x, y].Sublist rest) := by
      intro hx
      rw [List.sublist_cons_iff]
      refine ⟨fun h => h.resolve_right ?_, .inl⟩
      rintro ⟨_, hsplit, _⟩
      exact hx (List.cons.inj hsplit).1.symm
    by_cases hx : name = x
    · subst hx
      rw [firstOf?_cons_left]
      have hlater : y ∈ rest := List.mem_of_ne_of_mem hne.symm hy
      exact iff_of_true (List.cons_sublist_cons.2 (List.singleton_sublist.2 hlater)) rfl
    · rw [hskip hx]
      by_cases hyname : name = y
      · subst hyname
        rw [firstOf?_cons_right]
        refine iff_of_false (fun h => hfresh ?_) (fun h => hx (Option.some.inj h))
        exact h.subset (List.mem_cons_of_mem _ List.mem_cons_self)
      · rw [firstOf?_cons_of_ne hx hyname]
        exact ih hrest (List.mem_of_ne_of_mem (Ne.symm hyname) hy)

end Target

namespace Graph

open Target (DependsOn IsLeaf Meets MeetsFirst Needs Reaches Settled firstOf?)

variable {graph : Graph} {x y : String}

/-! ## The walk -/

theorem mem_of_reaches {order : List String} {name other : String}
    (horder : Settled graph.targets order) (hname : name ∈ order)
    (h : Reaches graph.targets name other) : other ∈ order := by
  induction h with
  | refl => exact hname
  | tail _ hdep ih =>
    obtain ⟨pre, post, rfl⟩ := List.append_of_mem ih
    exact List.mem_append_left _ (horder.mem_before graph.distinct rfl hdep)

section
variable {owner : String} {unvisited : List Target} {path names order below result : List String}

/-- A target that is added after what it lists reaches all that was added with it. -/
theorem reaches_of_mem {target : Target} (hmem : target ∈ graph.targets)
    (h : ∀ other ∈ below, other ∈ order ∨
      ∃ name ∈ target.dependencies, Reaches graph.targets name other)
    {other : String} (hother : other ∈ below ++ [target.name]) :
    other ∈ order ∨ Reaches graph.targets target.name other := by
  rcases List.mem_append.1 hother with hother | hother
  · refine (h other hother).imp_right ?_
    rintro ⟨dependency, hlists, hreaches⟩
    exact .head ⟨target, hmem, rfl, hlists⟩ hreaches
  · rw [List.mem_singleton.1 hother]
    exact .inr .refl

/-- The walk adds the names that it was asked for and what they need, and nothing else. -/
theorem Visits.mem_or_reaches (h : Visits unvisited path names order result)
    (hknown : ∀ target ∈ unvisited, target ∈ graph.targets) :
    ∀ other ∈ result, other ∈ order ∨ ∃ name ∈ names, Reaches graph.targets name other := by
  induction h with
  | nil => exact fun other hother => .inl hother
  | done _ _ ih =>
    intro other hother
    obtain hold | ⟨name, hname, hreaches⟩ := ih hknown other hother
    · exact .inl hold
    · exact .inr ⟨name, List.mem_cons_of_mem _ hname, hreaches⟩
  | @target _ _ _ _ _ _ name target _ _ hfind _ _ ihBelow ihRest =>
    intro other hother
    have hmem := hknown target (List.mem_of_find?_eq_some hfind)
    have hbelow := ihBelow fun target htarget => hknown target (mem_without.1 htarget).1
    obtain rfl : target.name = name := by simpa using List.find?_some hfind
    obtain hup | ⟨asked, hasked, hreaches⟩ := ihRest hknown other hother
    · refine (reaches_of_mem hmem hbelow hup).imp_right fun hreaches => ?_
      exact ⟨target.name, List.mem_cons_self, hreaches⟩
    · exact .inr ⟨asked, List.mem_cons_of_mem _ hasked, hreaches⟩

/-- What a visit of one target settles first: a leaf is itself the first, and any other target has
    the first below it. -/
theorem firstOf?_below (hx : IsLeaf graph.targets x) (hy : IsLeaf graph.targets y) (hne : x ≠ y)
    {target : Target} (hmem : target ∈ graph.targets) (hxorder : x ∉ order) (hyorder : y ∉ order)
    (hbelow : Visits unvisited path target.dependencies order below)
    (hreached : x ∈ below ++ [target.name] ∨ y ∈ below ++ [target.name])
    (hfirst : firstOf? x y below = some x ↔ MeetsFirst graph.targets x y target.dependencies) :
    firstOf? x y (below ++ [target.name]) = some x ↔
      target.name = x ∨ MeetsFirst graph.targets x y target.dependencies := by
  by_cases hleaf : target.name = x ∨ target.name = y
  · have hnone : target.dependencies = [] := by
      rcases hleaf with rfl | rfl
      · exact hx.dependencies_eq graph.distinct hmem
      · exact hy.dependencies_eq graph.distinct hmem
    rw [hnone] at hbelow
    cases hbelow
    rw [hnone, Target.firstOf?_append_of_clear hxorder hyorder]
    rcases hleaf with rfl | rfl
    · exact iff_of_true Target.firstOf?_cons_left (.inl rfl)
    · rw [Target.firstOf?_cons_right]
      refine iff_of_false (fun h => hne (Option.some.inj h).symm) ?_
      rintro (h | h)
      · exact hne h.symm
      · exact Target.not_meetsFirst_nil h
  · obtain ⟨hnx, hny⟩ := not_or.1 hleaf
    have hin : ∀ leaf, target.name ≠ leaf → leaf ∈ below ++ [target.name] → leaf ∈ below := by
      intro leaf hother hleaf
      refine (List.mem_append.1 hleaf).resolve_right fun hlast => ?_
      exact hother (List.mem_singleton.1 hlast).symm
    rw [Target.firstOf?_append_of_mem (hreached.imp (hin x hnx) (hin y hny)), hfirst,
      or_iff_right hnx]

/-- A walk that has met neither of two leaves goes on to put the one first that the names it is
    asked for meet first. -/
theorem firstOf?_visit (hx : IsLeaf graph.targets x) (hy : IsLeaf graph.targets y) (hne : x ≠ y)
    (h : Underway graph unvisited path order) (hasked : ∀ name ∈ names, Asked graph owner path name)
    (hxorder : x ∉ order) (hyorder : y ∉ order)
    (hvisit : Visits unvisited path names order result) :
    firstOf? x y result = some x ↔ MeetsFirst graph.targets x y names := by
  induction hvisit generalizing owner with
  | nil =>
    refine iff_of_false (fun hfirst => hxorder ?_) Target.not_meetsFirst_nil
    exact List.mem_of_find?_eq_some hfirst
  | @done _ _ _ _ _ name hdone _ ih =>
    have hclear : ¬Meets graph.targets x y name := by
      rintro (hreaches | hreaches)
      · exact hxorder (mem_of_reaches h.settled hdone hreaches)
      · exact hyorder (mem_of_reaches h.settled hdone hreaches)
    rw [Target.meetsFirst_cons_of_clear hclear]
    exact ih h (fun _ hname => hasked _ (List.mem_cons_of_mem _ hname)) hxorder hyorder
  | @target _ path rest order below _ name target hfresh hoff hfind hbelow hrest ihBelow ihRest =>
    have htarget := h.find?_eq_some hfind
    have hdown := h.descend (hasked name List.mem_cons_self) hfresh hoff
    obtain ⟨hback, -, hmet⟩ :=
      hdown.visit_ok (Underway.asked_below htarget) (visit_eq_ok_iff.2 hbelow)
    have hup := h.ascend hoff htarget hback hmet
    have haskedRest : ∀ other ∈ rest, Asked graph owner path other := fun other hother =>
      hasked other (List.mem_cons_of_mem _ hother)
    obtain ⟨hmem, rfl⟩ := htarget
    by_cases hmeets : Meets graph.targets x y target.name
    · -- One of the two stands in what is settled now, so the rest of the walk decides nothing.
      have hin : target.name ∈ below ++ [target.name] :=
        List.mem_append_right _ (List.mem_singleton_self _)
      have hreached : x ∈ below ++ [target.name] ∨ y ∈ below ++ [target.name] :=
        hmeets.imp (mem_of_reaches hup.settled hin) (mem_of_reaches hup.settled hin)
      obtain ⟨-, ⟨later, rfl⟩, -⟩ := hup.visit_ok haskedRest (visit_eq_ok_iff.2 hrest)
      rw [Target.firstOf?_append_of_mem hreached,
        Target.meetsFirst_cons_of_meets graph.distinct hmem hmeets]
      refine firstOf?_below hx hy hne hmem hxorder hyorder hbelow hreached ?_
      exact ihBelow hdown (Underway.asked_below ⟨hmem, rfl⟩) hxorder hyorder
    · have hadded : ∀ leaf ∈ below ++ [target.name],
          leaf ∈ order ∨ Reaches graph.targets target.name leaf := fun leaf hleaf =>
        reaches_of_mem hmem (hbelow.mem_or_reaches hdown.known) hleaf
      have hxup : x ∉ below ++ [target.name] := fun hin =>
        (hadded x hin).elim hxorder fun hreaches => hmeets (.inl hreaches)
      have hyup : y ∉ below ++ [target.name] := fun hin =>
        (hadded y hin).elim hyorder fun hreaches => hmeets (.inr hreaches)
      rw [Target.meetsFirst_cons_of_clear hmeets]
      exact ihRest hup haskedRest hxup hyup

end

/-- Of two leaves the one that is declared first comes first where no target declared before it
    needs the other. -/
theorem firstOf?_buildOrder {order front back : List String} (hx : IsLeaf graph.targets x)
    (hy : IsLeaf graph.targets y) (hne : x ≠ y) (hnames : graph.names = front ++ x :: back)
    (hyfront : y ∉ front) (hclear : ∀ name ∈ front, ¬Needs graph.targets name y)
    (h : graph.buildOrder = .ok order) : firstOf? x y order = some x := by
  obtain ⟨middle, hfront, hmiddle, hback, hprefix⟩ := buildOrder_cut hnames h
  have hymiddle : y ∉ middle := by
    intro hin
    obtain hin | ⟨name, hname, hreaches⟩ :=
      (visit_eq_ok_iff.1 hfront).mem_or_reaches hmiddle.known y hin
    · cases hin
    · rcases Relation.reflTransGen_iff_eq_or_transGen.1 hreaches with rfl | hneeds
      · exact hyfront hname
      · exact hclear name hname hneeds
  by_cases hxmiddle : x ∈ middle
  · obtain ⟨later, rfl⟩ := hprefix
    rw [Target.firstOf?_append_of_mem (.inl hxmiddle)]
    exact Target.firstOf?_of_mem hxmiddle hymiddle
  · have hasked : ∀ name ∈ x :: back, Asked graph "" [] name := by
      intro name hname
      exact asked_root (hnames ▸ List.mem_append_right front hname)
    have hwalk := visit_eq_ok_iff.1 hback
    exact (firstOf?_visit hx hy hne hmiddle hasked hxmiddle hymiddle hwalk).2 .here

/-! ## The main statement -/

/-- For every accepted list of targets that passes the check, and any two targets that depend on
    nothing: the one that is declared first comes first in the build order exactly if the way down
    from the declared names meets it first. In particular it does where no target declared before
    it needs the other. -/
theorem leaf_before_iff_meetsFirst {targets : List Target} (h : ofTargets targets = .ok graph)
    (hvalid : graph.check = .ok ()) (hx : IsLeaf targets x) (hy : IsLeaf targets y)
    (hdeclared : [x, y].Sublist (Target.names targets)) :
    ∃ order, graph.buildOrder = .ok order ∧
      ([x, y].Sublist order ↔ MeetsFirst targets x y (Target.names targets)) ∧
      ((∀ front back, Target.names targets = front ++ x :: back →
        ∀ name ∈ front, ¬Needs targets name y) → [x, y].Sublist order) := by
  obtain rfl := targets_of_ofTargets h
  obtain ⟨order, horder⟩ := exists_buildOrder_iff.2 (check_eq_ok_iff.1 hvalid)
  have hne : x ≠ y := by simpa using graph.distinct.sublist hdeclared
  have hyname : y ∈ graph.names := hdeclared.subset (List.mem_cons_of_mem _ List.mem_cons_self)
  have hpair : [x, y].Sublist order ↔ firstOf? x y order = some x :=
    Target.pair_sublist_iff (settled_buildOrder horder).1.nodup hne
      ((mem_buildOrder_iff horder).2 hyname)
  refine ⟨order, horder, ?_, fun hclear => ?_⟩
  · rw [hpair]
    unfold buildOrder at horder
    exact firstOf?_visit hx hy hne (Underway.start graph) (fun _ hname => asked_root hname)
      List.not_mem_nil List.not_mem_nil (visit_eq_ok_iff.1 horder)
  · obtain ⟨front, back, hnames, hxfront, hyback⟩ := List.cons_sublist_iff.1 hdeclared
    obtain ⟨pre, post, rfl⟩ := List.append_of_mem hxfront
    have hyfront : y ∉ pre ++ x :: post := by
      intro hyfront
      have hdistinct : ((pre ++ x :: post) ++ back).Nodup := hnames ▸ graph.distinct
      have hlater : y ∈ back := List.singleton_sublist.1 hyback
      exact (List.nodup_append.1 hdistinct).2.2 y hyfront y hlater rfl
    rw [List.append_assoc, List.cons_append] at hnames
    rw [hpair]
    exact firstOf?_buildOrder hx hy hne hnames (fun hin => hyfront (List.mem_append_left _ hin))
      (hclear pre _ hnames) horder

/-- An application that lists two of the three targets that depend on nothing, and names the one
    that is declared later first. -/
def crossed : Graph where
  targets := [
    { name := "app", dependencies := ["ui", "core"], path := ⟨"app"⟩ },
    { name := "core", path := ⟨"core"⟩ },
    { name := "ui", path := ⟨"ui"⟩ },
    { name := "docs", path := ⟨"docs"⟩ }]
  valid := by decide +kernel
  distinct := by decide

theorem isLeaf_crossed : ∀ name ∈ ["core", "ui", "docs"], IsLeaf crossed.targets name := by
  unfold IsLeaf
  decide

/-- Nothing depends on the third, so it keeps its place behind the first. -/
theorem leaf_before_crossed : ∃ order, crossed.buildOrder = .ok order ∧
    ["core", "docs"].Sublist order ∧
    MeetsFirst crossed.targets "core" "docs" (Target.names crossed.targets) := by
  have haccepted : ofTargets crossed.targets = .ok crossed := ofTargets_eq_ok_iff.2 rfl
  have hunlisted : ∀ name, ¬DependsOn crossed.targets name "docs" := by
    rintro name ⟨target, hmem, -, hlists⟩
    exact absurd hlists ((by decide : ∀ target ∈ crossed.targets, "docs" ∉ target.dependencies)
      target hmem)
  obtain ⟨order, horder, hexact, hclear⟩ := leaf_before_iff_meetsFirst haccepted (by cbv)
    (isLeaf_crossed "core" (by decide)) (isLeaf_crossed "docs" (by decide)) (by decide)
  have hbefore : ["core", "docs"].Sublist order := by
    refine hclear fun front back _ name _ hneeds => ?_
    obtain ⟨other, -, hdep⟩ := Relation.TransGen.tail'_iff.1 hneeds
    exact hunlisted other hdep
  exact ⟨order, horder, hbefore, hexact.1 hbefore⟩

/-- The first two change places in the order, although neither depends on anything and the list of
    targets passes the check. -/
theorem crossed_against_declaration :
    ofTargets crossed.targets = .ok crossed ∧ crossed.check = .ok () ∧
      IsLeaf crossed.targets "core" ∧ IsLeaf crossed.targets "ui" ∧
      ["core", "ui"].Sublist (Target.names crossed.targets) ∧
      ∃ order, crossed.buildOrder = .ok order ∧ ¬["core", "ui"].Sublist order := by
  have hmade : crossed.buildOrder = .ok ["ui", "core", "app", "docs"] := by cbv
  exact ⟨ofTargets_eq_ok_iff.2 rfl, by cbv, isLeaf_crossed "core" (by decide),
    isLeaf_crossed "ui" (by decide), by decide, _, hmade, by decide⟩

end Graph

end PackagePlan
