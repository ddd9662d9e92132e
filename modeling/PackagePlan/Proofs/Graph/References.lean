/-
  The names that are reported as unresolved. Whoever reports one, no target of that name is
  declared. The check, the order, the waves and the check of the products blame a target or product
  that lists the name (`refers_of_blamed`, `refers_of_checkProducts`). The search behind a closure
  knows only where it started: if the start needs the name, the start is blamed
  (`blamed_of_closure`), although another target may be the one that lists it
  (`loose_blames_start`). Main statement: `unresolved_blames`.
-/
import PackagePlan.Proofs.Graph.Cycles

namespace PackagePlan

/-- The referrer is a target that lists the name among its dependencies, or a product that lists it
    among its members. -/
inductive Referrer.Refers (targets : List Target) (products : List Product) (name : String) :
    Referrer → Prop where
  | dependency {owner : String} (lists : Target.DependsOn targets owner name) :
      Refers targets products name (.target owner)
  | member {product : Product} (declared : product ∈ products) (lists : name ∈ product.targets) :
      Refers targets products name (.product product.name)

namespace Graph

open Referrer (Refers)
open Target (DependsOn Needs)

variable {graph : Graph} {products : List Product} {name start : String} {referrer : Referrer}

/-! ## Checks and orders -/

theorem refers_of_blamed (h : Blamed graph.targets (.unresolvedReference name referrer)) :
    name ∉ graph.names ∧ Refers graph.targets products name referrer := by
  cases h with
  | unknown undeclared lists => exact ⟨undeclared, .dependency lists⟩

theorem refers_of_firstProductFault? {seen : List String} {listed : List Product}
    (hknown : ∀ product ∈ listed, product ∈ products)
    (h : graph.firstProductFault? seen listed =
      some (.unresolvedReference name referrer)) :
    name ∉ graph.names ∧ Refers graph.targets products name referrer := by
  induction listed generalizing seen with
  | nil => cases h
  | cons product rest ih =>
    obtain ⟨hproduct, hrest⟩ := List.forall_mem_cons.1 hknown
    rw [firstProductFault?] at h
    split at h
    · cases h
    split at h
    · cases h
    split at h
    · next member hfind =>
      cases h
      exact ⟨not_declared_of_find? hfind, .member hproduct (List.mem_of_find?_eq_some hfind)⟩
    · exact ih hrest h

theorem refers_of_checkProducts
    (h : graph.checkProducts products = .error (.unresolvedReference name referrer)) :
    name ∉ graph.names ∧ Refers graph.targets products name referrer := by
  unfold checkProducts at h
  split at h
  · next fault hfault =>
    obtain rfl := Except.error.inj h
    exact refers_of_firstProductFault? (fun _ hproduct => hproduct) hfault
  · cases h

/-! ## Closures -/

/-- A search follows only declared names, so all that it has reached in the end is declared. -/
theorem Search.mem_names {reached pending result : List String}
    {outcome : Except BuildError (List String)} (h : graph.Search start reached pending outcome)
    (hok : outcome = .ok result) (hreached : ∀ name ∈ reached, name ∈ graph.names) :
    ∀ name ∈ result, name ∈ graph.names := by
  induction h with
  | done =>
    obtain rfl := Except.ok.inj hok
    exact hreached
  | skip _ _ ih => exact ih hok hreached
  | unknown => cases hok
  | follow _ htarget _ ih =>
    obtain ⟨hmem, hname⟩ := target?_eq_some_iff.1 htarget
    have hdeclared := Target.mem_names.2 ⟨_, hmem, hname⟩
    exact ih hok (List.forall_mem_cons.2 ⟨hdeclared, hreached⟩)

/-- Where the search from a target ends well, the target needs declared names only. -/
theorem mem_names_of_search {target : Target} {reached : List String}
    (htarget : graph.target? start = some target)
    (hsearch : graph.Search start [] target.dependencies.reverse (.ok reached))
    (hneeds : Needs graph.targets start name) : name ∈ graph.names := by
  have hbegin := Searching.start_of htarget
  have hreach := (hbegin.search_iff.1 hsearch).symm
  have hin : name ∈ reached := (hbegin.reach_ok hreach name).2 hneeds
  exact hsearch.mem_names rfl (List.forall_mem_nil _) name hin

/-- A closure blames the start if the start needs the name, and otherwise a target that lists it. -/
theorem blamed_of_closure
    (h : graph.closure start = .error (.unresolvedReference name referrer)) :
    name ∉ graph.names ∧ ∃ owner ∈ graph.names, referrer = .target owner ∧
      (Needs graph.targets start name ∧ owner = start ∨
        ¬Needs graph.targets start name ∧ DependsOn graph.targets owner name) := by
  have hanswer := answer_closure graph start
  rw [h] at hanswer
  cases hanswer with
  | dangling htarget _ needs undeclared =>
    exact ⟨undeclared, start, needs.declared, rfl, .inl ⟨needs, rfl⟩⟩
  | unordered htarget hsearch horder =>
    cases buildOrder_error horder with
    | @unknown _ owner undeclared lists =>
      have hneedless : ¬Needs graph.targets start name := fun hneeds =>
        undeclared (mem_names_of_search htarget hsearch hneeds)
      exact ⟨undeclared, owner, lists.declared, rfl, .inr ⟨hneedless, lists⟩⟩

theorem refers_target_iff {targets : List Target} {owner : String} :
    Refers targets products name (.target owner) ↔ DependsOn targets owner name := by
  constructor
  · intro h
    cases h with
    | dependency lists => exact lists
  · exact .dependency

/-! ## The main statement -/

/-- Every unresolved name that is reported for an accepted list of targets is declared nowhere. The
    check, the check of the products, the order and the waves blame a target or product that lists
    the name. A closure blames a declared target too, and it is one that lists the name exactly if
    the start does so itself or does not need the name; if the start needs it, it is the start that
    is blamed. -/
theorem unresolved_blames {targets : List Target} (h : ofTargets targets = .ok graph)
    (products : List Product) (name : String) (referrer : Referrer) :
    (graph.check = .error (.unresolvedReference name referrer) ∨
      graph.checkProducts products = .error (.unresolvedReference name referrer) ∨
      graph.buildOrder = .error (.unresolvedReference name referrer) ∨
      graph.waves = .error (.unresolvedReference name referrer) →
        name ∉ Target.names targets ∧ Refers targets products name referrer) ∧
    ∀ start, graph.closure start = .error (.unresolvedReference name referrer) →
      name ∉ Target.names targets ∧
      (∃ owner ∈ Target.names targets, referrer = .target owner) ∧
      (Refers targets products name referrer ↔
        (Needs targets start name → DependsOn targets start name)) ∧
      (Needs targets start name → referrer = .target start) := by
  obtain rfl := targets_of_ofTargets h
  refine ⟨?_, fun start hclosure => ?_⟩
  · rintro (hcheck | hproducts | horder | hwaves)
    · exact refers_of_blamed (blamed_of_check hcheck)
    · exact refers_of_checkProducts hproducts
    · exact refers_of_blamed (buildOrder_error horder)
    · exact refers_of_blamed (buildOrder_error (waves_eq_error.1 hwaves))
  · obtain ⟨hundeclared, owner, hdeclared, rfl, hcases⟩ := blamed_of_closure hclosure
    refine ⟨hundeclared, ⟨owner, hdeclared, rfl⟩, ?_⟩
    rw [refers_target_iff]
    rcases hcases with ⟨hneeds, rfl⟩ | ⟨hneedless, hlists⟩
    · exact ⟨⟨fun hlists _ => hlists, fun hdirect => hdirect hneeds⟩, fun _ => rfl⟩
    · exact ⟨iff_of_true hlists fun hneeds => absurd hneeds hneedless,
        fun hneeds => absurd hneeds hneedless⟩

/-- An application that needs an undeclared name, but only through its user interface. -/
def loose : Graph where
  targets := [
    { name := "app", dependencies := ["ui"], path := ⟨"app"⟩ },
    { name := "ui", dependencies := ["ghost"], path := ⟨"ui"⟩ }]
  valid := by decide +kernel
  distinct := by decide

/-- The check and the closure of the user interface blame the user interface, and a product is
    blamed for its own member. -/
theorem unresolved_blames_loose :
    (loose.check = .error (.unresolvedReference "ghost" (.target "ui")) ∧
      loose.closure "ui" = .error (.unresolvedReference "ghost" (.target "ui")) ∧
      Refers loose.targets [] "ghost" (.target "ui")) ∧
    loose.checkProducts [⟨"suite", ["ui", "phantom"]⟩] =
        .error (.unresolvedReference "phantom" (.product "suite")) ∧
      Refers loose.targets [⟨"suite", ["ui", "phantom"]⟩] "phantom" (.product "suite") := by
  have haccepted : ofTargets loose.targets = .ok loose := ofTargets_eq_ok_iff.2 rfl
  have hcheck : loose.check = .error (.unresolvedReference "ghost" (.target "ui")) := by cbv
  have hclosure : loose.closure "ui" = .error (.unresolvedReference "ghost" (.target "ui")) := by
    cbv
  have hproducts : loose.checkProducts [⟨"suite", ["ui", "phantom"]⟩] =
      .error (.unresolvedReference "phantom" (.product "suite")) := by cbv
  have hlists : DependsOn loose.targets "ui" "ghost" :=
    ⟨loose.targets[1], by decide, rfl, by decide⟩
  obtain ⟨-, hclosures⟩ := unresolved_blames haccepted [] "ghost" (.target "ui")
  obtain ⟨hblames, -⟩ := unresolved_blames haccepted [⟨"suite", ["ui", "phantom"]⟩] "phantom"
    (.product "suite")
  exact ⟨⟨hcheck, hclosure, (hclosures "ui" hclosure).2.2.1.2 fun _ => hlists⟩,
    hproducts, (hblames (.inr (.inl hproducts))).2⟩

/-- The closure of the application blames the application, which does not list the name. -/
theorem loose_blames_start :
    ofTargets loose.targets = .ok loose ∧
      loose.closure "app" = .error (.unresolvedReference "ghost" (.target "app")) ∧
      ¬DependsOn loose.targets "app" "ghost" := by
  refine ⟨ofTargets_eq_ok_iff.2 rfl, by cbv, ?_⟩
  rintro ⟨target, hmem, hname, hlists⟩
  revert target
  decide

end Graph

end PackagePlan
