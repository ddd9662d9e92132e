/-
  What a variant makes of a description. Its extra exclusions reach the first target of each name
  that it gives patterns for, and no other target (`getElem?_excludeAll`); what they add are the
  patterns that the target did not have, each once and in order (`addPatterns_eq`). Applying a
  variant fails just when it gives a name that is not declared, and applying it again changes
  nothing. Main statement: `materialize_applies`.
-/
import PackagePlan.Proofs.Catalog
import PackagePlan.Proofs.Description.Materialize

namespace PackagePlan

/-! ## The patterns of one target -/

/-- What is added are the patterns that were missing, each where it first stands. -/
theorem addPatterns_eq (declared patterns : List String) :
    addPatterns declared patterns =
      declared ++ (patterns.filter fun pattern => decide (pattern ∉ declared)).eraseDups := by
  induction patterns generalizing declared with
  | nil => simp [addPatterns]
  | cons first rest ih =>
    rw [addPatterns]
    split
    · next hfirst => rw [ih, List.filter_cons_of_neg (by simpa using hfirst)]
    · next hfirst =>
      have hrest : (rest.filter fun pattern => decide (pattern ∉ declared ++ [first])) =
          (rest.filter fun pattern => decide (pattern ∉ declared)).filter fun pattern =>
            !pattern == first := by
        rw [List.filter_filter]
        refine List.filter_congr fun pattern _ => ?_
        by_cases hpattern : pattern = first
        · simp [hpattern]
        · simp [hpattern]
      rw [ih, hrest, List.filter_cons_of_pos (by simpa using hfirst), List.eraseDups_cons,
        List.append_assoc, List.singleton_append]

theorem mem_addPatterns {declared patterns : List String} {pattern : String} :
    pattern ∈ addPatterns declared patterns ↔ pattern ∈ declared ∨ pattern ∈ patterns := by
  rw [addPatterns_eq, List.mem_append, List.mem_eraseDups, List.mem_filter, decide_eq_true_eq]
  by_cases hpattern : pattern ∈ declared
  · simp [hpattern]
  · simp [hpattern]

theorem addPatterns_of_subset {declared patterns : List String} (h : patterns ⊆ declared) :
    addPatterns declared patterns = declared := by
  have hnone : (patterns.filter fun pattern => decide (pattern ∉ declared)) = [] :=
    List.filter_eq_nil_iff.2 fun pattern hpattern => by simpa using h hpattern
  rw [addPatterns_eq, hnone]
  simp

/-- The patterns of the entry of a name, if there is one. -/
def extraIn (entries : List (String × List String)) (name : String) : List String :=
  ((entries.find? fun entry => compare entry.1 name == .eq).map (·.2)).getD []

/-- The target with the patterns that the entries add to it. -/
def Target.extended (entries : List (String × List String)) (target : Target) : Target :=
  { target with exclude := addPatterns target.exclude (extraIn entries target.name) }

theorem extraIn_cons_self (name : String) (patterns : List String)
    (rest : List (String × List String)) : extraIn ((name, patterns) :: rest) name = patterns := by
  simp [extraIn]

theorem extraIn_cons_of_ne {name other : String} (hne : other ≠ name) (patterns : List String)
    (rest : List (String × List String)) :
    extraIn ((other, patterns) :: rest) name = extraIn rest name := by
  have hcompare : (compare other name == .eq) = false := by
    rw [Bool.eq_false_iff, ne_eq, beq_iff_eq]
    exact fun heq => hne (Std.LawfulEqOrd.eq_of_compare heq)
  simp [extraIn, hcompare]

theorem extraIn_of_not_mem {entries : List (String × List String)} {name : String}
    (h : name ∉ entries.map (·.1)) : extraIn entries name = [] := by
  induction entries with
  | nil => rfl
  | cons entry rest ih =>
    rw [List.map_cons, List.mem_cons, not_or] at h
    obtain ⟨other, patterns⟩ := entry
    rw [extraIn_cons_of_ne (Ne.symm h.1), ih h.2]

/-- In the entries of a catalog the patterns of a name are those under its key. -/
theorem extraIn_entries (extra : Catalog String (List String)) (name : String) :
    extraIn extra.entries name = (extra.get? name).getD [] := rfl

theorem mem_extraIn {extra : Catalog String (List String)} {name pattern : String} :
    pattern ∈ extraIn extra.entries name ↔
      ∃ patterns, extra.get? name = some patterns ∧ pattern ∈ patterns := by
  rw [extraIn_entries]
  cases extra.get? name <;> simp

namespace Target

variable {target : Target} {entries : List (String × List String)}

theorem extended_of_not_mem (h : target.name ∉ entries.map (·.1)) :
    target.extended entries = target := by
  rw [extended, extraIn_of_not_mem h]
  rfl

theorem extended_cons_self (patterns : List String) :
    target.extended ((target.name, patterns) :: entries) =
      { target with exclude := addPatterns target.exclude patterns } := by
  rw [extended, extraIn_cons_self]

theorem extended_cons_of_ne {name : String} (hne : name ≠ target.name) (patterns : List String) :
    target.extended ((name, patterns) :: entries) = target.extended entries := by
  rw [extended, extended, extraIn_cons_of_ne hne]

/-- The patterns of the first entry and then those of the others. -/
theorem extended_cons {name : String} {patterns : List String} (h : name ∉ entries.map (·.1)) :
    (target.extended [(name, patterns)]).extended entries =
      target.extended ((name, patterns) :: entries) := by
  by_cases hname : name = target.name
  · subst hname
    rw [extended_cons_self, extended_cons_self]
    exact extended_of_not_mem h
  · rw [extended_cons_of_ne hname, extended_cons_of_ne hname]
    rfl

/-- A target that has the patterns already gets none. -/
theorem extended_extended :
    (target.extended entries).extended entries = target.extended entries := by
  have hkept : addPatterns (target.extended entries).exclude (extraIn entries target.name) =
      (target.extended entries).exclude :=
    addPatterns_of_subset fun _ hpattern => mem_addPatterns.2 (.inr hpattern)
  exact congrArg (fun patterns => { target with exclude := patterns }) hkept

end Target

/-! ## The targets of a list -/

variable {targets grown : List Target} {variant : String}

/-- The names before a position. They decide whether the target there is the first of its name. -/
def Target.namesBefore (targets : List Target) (i : Nat) : List String :=
  Target.names (targets.take i)

theorem namesBefore_congr (h : Target.names grown = Target.names targets) (i : Nat) :
    Target.namesBefore grown i = Target.namesBefore targets i := by
  unfold Target.namesBefore Target.names at *
  rw [List.map_take, List.map_take, h]

/-- Where names are distinct every target is the first of its name. -/
theorem not_mem_namesBefore (hnodup : (Target.names targets).Nodup) {i : Nat} {target : Target}
    (htarget : targets[i]? = some target) : target.name ∉ Target.namesBefore targets i := by
  obtain ⟨hi, rfl⟩ := List.getElem?_eq_some_iff.1 htarget
  have hdrop : targets[i].name ∈ Target.names (targets.drop i) := by
    rw [List.drop_eq_getElem_cons hi]
    exact List.mem_cons_self
  rw [← List.take_append_drop i targets, Target.names, List.map_append] at hnodup
  exact fun htake => List.disjoint_of_nodup_append hnodup htake hdrop

theorem excludeIn_eq_none_iff {name : String} {patterns : List String} :
    excludeIn name patterns targets = none ↔ name ∉ Target.names targets := by
  induction targets with
  | nil => simp [excludeIn, Target.names]
  | cons target rest ih =>
    rw [excludeIn, Target.names, List.map_cons, List.mem_cons, not_or]
    split
    · next hname => simp [hname]
    · next hname =>
      rw [Option.map_eq_none_iff, ih]
      exact ⟨fun hrest => ⟨Ne.symm hname, hrest⟩, And.right⟩

theorem excludeIn_names {name : String} {patterns : List String}
    (h : excludeIn name patterns targets = some grown) :
    Target.names grown = Target.names targets :=
  excludeIn_map (·.name) (fun _ _ => rfl) h

/-- One entry changes the first target of its name. -/
theorem getElem?_excludeIn {name : String} {patterns : List String}
    (h : excludeIn name patterns targets = some grown) (i : Nat) :
    grown[i]? = targets[i]?.map fun target =>
      if target.name ∈ Target.namesBefore targets i then target
      else target.extended [(name, patterns)] := by
  induction targets generalizing grown i with
  | nil => cases h
  | cons first rest ih =>
    rw [excludeIn] at h
    split at h
    · next hname =>
      obtain rfl := Option.some.inj h
      subst hname
      cases i with
      | zero => simp [Target.namesBefore, Target.names, Target.extended_cons_self]
      | succ i =>
        have hkept : ∀ target : Target, (if target.name ∈
            Target.namesBefore (first :: rest) (i + 1) then target
            else target.extended [(first.name, patterns)]) = target := by
          intro target
          split
          · rfl
          · next hfresh =>
            refine Target.extended_of_not_mem fun hmem => hfresh ?_
            rw [List.mem_singleton.1 hmem]
            exact List.mem_cons_self
        simp only [hkept, List.getElem?_cons_succ, Option.map_id']
    · next hname =>
      obtain ⟨rest', hrest, rfl⟩ := Option.map_eq_some_iff.1 h
      cases i with
      | zero => simp [Target.namesBefore, Target.names, Target.extended_of_not_mem, hname]
      | succ i =>
        rw [List.getElem?_cons_succ, List.getElem?_cons_succ, ih hrest]
        refine Option.map_congr fun target _ => ?_
        by_cases hsame : target.name = first.name
        · rw [Target.extended_of_not_mem (by simpa [hsame] using hname)]
          simp
        · simp [Target.namesBefore, Target.names, hsame]

section
variable {entries : List (String × List String)}

theorem excludeAll_names (h : excludeAll variant targets entries = .ok grown) :
    Target.names grown = Target.names targets :=
  excludeAll_map (·.name) (fun _ _ => rfl) h

/-- The entries change the first target of each of their names. -/
theorem getElem?_excludeAll (hkeys : (entries.map (·.1)).Nodup)
    (h : excludeAll variant targets entries = .ok grown) (i : Nat) :
    grown[i]? = targets[i]?.map fun target =>
      if target.name ∈ Target.namesBefore targets i then target
      else target.extended entries := by
  induction entries generalizing targets with
  | nil =>
    obtain rfl := Except.ok.inj h
    have hkept : ∀ target : Target, target.extended [] = target := fun _ => rfl
    simp [hkept]
  | cons entry rest ih =>
    obtain ⟨name, patterns⟩ := entry
    obtain ⟨hfresh, hrest⟩ := List.nodup_cons.1 hkeys
    rw [excludeAll] at h
    split at h
    · next first hfirst =>
      rw [ih hrest h, getElem?_excludeIn hfirst, Option.map_map,
        namesBefore_congr (excludeIn_names hfirst)]
      refine Option.map_congr fun target _ => ?_
      rw [Function.comp_apply]
      by_cases hbefore : target.name ∈ Target.namesBefore targets i
      · rw [if_pos hbefore, if_pos hbefore, if_pos hbefore]
      · have hname : (target.extended [(name, patterns)]).name = target.name := rfl
        rw [if_neg hbefore, hname, if_neg hbefore, if_neg hbefore, Target.extended_cons hfresh]
    · cases h

/-- The entries can be added when each of them names a target. -/
theorem exists_excludeAll (h : ∀ name ∈ entries.map (·.1), name ∈ Target.names targets) :
    ∃ grown, excludeAll variant targets entries = .ok grown := by
  induction entries generalizing targets with
  | nil => exact ⟨targets, rfl⟩
  | cons entry rest ih =>
    obtain ⟨name, patterns⟩ := entry
    obtain ⟨hname, hrest⟩ := List.forall_mem_cons.1 h
    cases hfirst : excludeIn name patterns targets with
    | none => exact absurd hname (excludeIn_eq_none_iff.1 hfirst)
    | some first =>
      obtain ⟨grown, hgrown⟩ := ih (excludeIn_names hfirst ▸ hrest)
      exact ⟨grown, by rw [excludeAll, hfirst]; exact hgrown⟩

theorem names_of_excludeAll (h : excludeAll variant targets entries = .ok grown) :
    ∀ name ∈ entries.map (·.1), name ∈ Target.names targets := by
  induction entries generalizing targets with
  | nil => exact List.forall_mem_nil _
  | cons entry rest ih =>
    obtain ⟨name, patterns⟩ := entry
    rw [excludeAll] at h
    split at h
    · next first hfirst =>
      refine List.forall_mem_cons.2 ⟨?_, excludeIn_names hfirst ▸ ih h⟩
      by_contra hundeclared
      rw [excludeIn_eq_none_iff.2 hundeclared] at hfirst
      cases hfirst
    · cases h

/-- Otherwise the first one that names none is reported. -/
theorem name_of_excludeAll_error {error : BuildError}
    (h : excludeAll variant targets entries = .error error) :
    ∃ name ∈ entries.map (·.1), name ∉ Target.names targets ∧
      error = .unresolvedReference name (.variant variant) := by
  induction entries generalizing targets with
  | nil => cases h
  | cons entry rest ih =>
    obtain ⟨name, patterns⟩ := entry
    rw [excludeAll] at h
    split at h
    · next first hfirst =>
      obtain ⟨other, hother, hundeclared, rfl⟩ := ih h
      rw [excludeIn_names hfirst] at hundeclared
      exact ⟨other, List.mem_cons_of_mem _ hother, hundeclared, rfl⟩
    · next hnone =>
      obtain rfl := Except.error.inj h
      exact ⟨name, List.mem_cons_self, excludeIn_eq_none_iff.1 hnone, rfl⟩

end

/-! ## The description -/

namespace PackageDescription

/-- The names of the declared products. -/
def productNames (description : PackageDescription) : List String :=
  description.products.map (·.name)

/-- A name that a variant gives and the description does not declare, and where it is given. -/
inductive Misses (description : PackageDescription) (variant : Variant) :
    String → Referrer → Prop
  /-- The name of a target that the variant has extra exclusions for. -/
  | target {name : String} (given : name ∈ variant.spec.extraExclude.keys)
      (undeclared : name ∉ Target.names description.targets) :
      Misses description variant name (.variant variant.name)
  /-- The name of a product that the variant lists. -/
  | product {names : List String} {name : String} (only : variant.spec.products = .only names)
      (listed : name ∈ names) (undeclared : name ∉ description.productNames) :
      Misses description variant name (.productList variant.name)

/-- What a descriptor owes to the description and the variant that it was made from. Targets are
    told apart by their positions, because names may be repeated. -/
structure AppliedTo (description : PackageDescription) (chosen : Variant)
    (descriptor : Descriptor) : Prop where
  package : descriptor.package = description.name
  variant : descriptor.variant = chosen
  cLanguageStandard : descriptor.cLanguageStandard = description.cLanguageStandard
  length : descriptor.targets.length = description.targets.length
  /-- The first target of a name that the variant has patterns for gets those of them that it does
      not declare itself, each once, behind its own. -/
  first : ∀ i target patterns, description.targets[i]? = some target →
    target.name ∉ Target.namesBefore description.targets i →
    chosen.spec.extraExclude.get? target.name = some patterns →
    descriptor.targets[i]? = some { target with
      exclude := target.exclude ++
        (patterns.filter fun pattern => decide (pattern ∉ target.exclude)).eraseDups }
  /-- All other targets stay as they are. -/
  others : ∀ i target, description.targets[i]? = some target →
    target.name ∈ Target.namesBefore description.targets i ∨
      chosen.spec.extraExclude.get? target.name = none →
    descriptor.targets[i]? = some target
  /-- The products that the variant exposes, as declared. -/
  products : descriptor.products =
    description.products.filter fun product => chosen.spec.products.exposes product.name
  /-- Applied to the new targets, with all products or with those it has left, the variant changes
      nothing. -/
  again : { description with targets := descriptor.targets }.materialize chosen = .ok descriptor
  again_visible : { description with
    targets := descriptor.targets, products := descriptor.products }.materialize chosen =
      .ok descriptor

variable {description : PackageDescription} {variant : Variant} {descriptor : Descriptor}

theorem declaresProduct_iff {name : String} :
    description.declaresProduct name = true ↔ name ∈ description.productNames := by
  unfold declaresProduct productNames
  simp only [List.any_eq_true, beq_iff_eq, List.mem_map]

theorem firstHiddenProduct?_eq_none_iff :
    description.firstHiddenProduct? variant = none ↔
      ∀ names, variant.spec.products = .only names →
        ∀ name ∈ names, name ∈ description.productNames := by
  unfold firstHiddenProduct?
  cases variant.spec.products with
  | all => simp
  | only names => simp [declaresProduct_iff]

theorem misses_of_firstHiddenProduct? {name : String}
    (h : description.firstHiddenProduct? variant = some name) :
    description.Misses variant name (.productList variant.name) := by
  unfold firstHiddenProduct? at h
  split at h
  · cases h
  · next names hnames =>
    have hundeclared := List.find?_some h
    rw [Bool.not_eq_true', Bool.eq_false_iff, ne_eq, declaresProduct_iff] at hundeclared
    exact .product hnames (List.mem_of_find?_eq_some h) hundeclared

theorem misses_of_materialize_error {error : BuildError}
    (h : description.materialize variant = .error error) :
    ∃ name referrer, error = .unresolvedReference name referrer ∧
      description.Misses variant name referrer := by
  unfold materialize at h
  split at h
  · next hexcluded =>
    obtain rfl := Except.error.inj h
    obtain ⟨name, hname, hundeclared, rfl⟩ := name_of_excludeAll_error hexcluded
    exact ⟨name, _, rfl, .target hname hundeclared⟩
  · split at h
    · next name hname =>
      obtain rfl := Except.error.inj h
      exact ⟨name, _, rfl, misses_of_firstHiddenProduct? hname⟩
    · cases h

theorem not_misses_of_materialize (h : description.materialize variant = .ok descriptor)
    (name : String) (referrer : Referrer) : ¬description.Misses variant name referrer := by
  obtain ⟨targets, htargets, hproducts, -⟩ := materialize_eq_ok_iff.1 h
  intro hmisses
  cases hmisses with
  | target hgiven hundeclared => exact hundeclared (names_of_excludeAll htargets name hgiven)
  | product honly hlisted hundeclared =>
    exact hundeclared (firstHiddenProduct?_eq_none_iff.1 hproducts _ honly name hlisted)

/-- Every target of a descriptor, by its position. -/
theorem getElem?_materialize (h : description.materialize variant = .ok descriptor) (i : Nat) :
    descriptor.targets[i]? = description.targets[i]?.map fun target =>
      if target.name ∈ Target.namesBefore description.targets i then target
      else target.extended variant.spec.extraExclude.entries := by
  obtain ⟨targets, htargets, -, rfl⟩ := materialize_eq_ok_iff.1 h
  exact getElem?_excludeAll variant.spec.extraExclude.nodup_keys htargets i

/-- The extra exclusions are all there already when they are added again. -/
theorem excludeAll_again {targets : List Target}
    (h : excludeAll variant.name description.targets variant.spec.extraExclude.entries =
      .ok targets) :
    excludeAll variant.name targets variant.spec.extraExclude.entries = .ok targets := by
  have hkeys := variant.spec.extraExclude.nodup_keys
  have hnames := excludeAll_names h
  obtain ⟨again, hagain⟩ : ∃ again,
      excludeAll variant.name targets variant.spec.extraExclude.entries = .ok again :=
    exists_excludeAll fun name hname => by rw [hnames]; exact names_of_excludeAll h name hname
  have hsame : again = targets := by
    refine List.ext_getElem? fun i => ?_
    rw [getElem?_excludeAll hkeys hagain, getElem?_excludeAll hkeys h, Option.map_map,
      namesBefore_congr hnames]
    refine Option.map_congr fun target _ => ?_
    rw [Function.comp_apply]
    by_cases hbefore : target.name ∈ Target.namesBefore description.targets i
    · rw [if_pos hbefore, if_pos hbefore]
    · have hname : (target.extended variant.spec.extraExclude.entries).name = target.name := rfl
      rw [if_neg hbefore, hname, if_neg hbefore, Target.extended_extended]
  rw [hagain, hsame]

/-- The products that a variant lists are among those that it exposes. -/
theorem firstHiddenProduct?_visible {targets : List Target}
    (h : description.firstHiddenProduct? variant = none) :
    { description with
      targets
      products := description.products.filter fun p =>
        variant.spec.products.exposes p.name }.firstHiddenProduct? variant = none := by
  refine firstHiddenProduct?_eq_none_iff.2 fun names hnames name hname => ?_
  obtain ⟨product, hproduct, rfl⟩ :=
    List.mem_map.1 (firstHiddenProduct?_eq_none_iff.1 h names hnames name hname)
  refine List.mem_map.2 ⟨product, List.mem_filter.2 ⟨hproduct, ?_⟩, rfl⟩
  simpa [hnames, ProductVisibility.exposes] using hname

theorem appliedTo_of_materialize (h : description.materialize variant = .ok descriptor) :
    description.AppliedTo variant descriptor := by
  have hposition := getElem?_materialize h
  have hnames := materialize_names h
  obtain ⟨targets, htargets, hproducts, rfl⟩ := materialize_eq_ok_iff.1 h
  have hagain := excludeAll_again htargets
  exact
    { package := rfl
      variant := rfl
      cLanguageStandard := rfl
      length := by simpa [Target.names] using congrArg List.length hnames
      first := fun i target patterns htarget hfirst hpatterns => by
        rw [hposition, htarget, Option.map_some, if_neg hfirst, Target.extended, extraIn_entries,
          hpatterns, Option.getD_some, addPatterns_eq]
      others := fun i target htarget hother => by
        rw [hposition, htarget, Option.map_some]
        split
        · rfl
        · next hfirst =>
          rw [Target.extended, extraIn_entries, hother.resolve_left hfirst]
          rfl
      products := rfl
      again := materialize_eq_ok_iff.2 ⟨targets, hagain, hproducts, rfl⟩
      again_visible := materialize_eq_ok_iff.2
        ⟨targets, hagain, firstHiddenProduct?_visible hproducts, by simp⟩ }

/-- Applying a variant fails exactly when it gives a name that is not declared, and then names it.
    Otherwise it adds the patterns that are missing, drops the products that it does not expose,
    and changes nothing else. -/
theorem materialize_applies (description : PackageDescription) (variant : Variant) :
    ((∃ error, description.materialize variant = .error error) ↔
      ∃ name referrer, description.Misses variant name referrer) ∧
    (∀ error, description.materialize variant = .error error →
      ∃ name referrer, error = .unresolvedReference name referrer ∧
        description.Misses variant name referrer) ∧
    ∀ descriptor, description.materialize variant = .ok descriptor →
      description.AppliedTo variant descriptor := by
  refine ⟨⟨?_, ?_⟩, fun _ => misses_of_materialize_error, fun _ => appliedTo_of_materialize⟩
  · rintro ⟨error, herror⟩
    obtain ⟨name, referrer, -, hmisses⟩ := misses_of_materialize_error herror
    exact ⟨name, referrer, hmisses⟩
  · rintro ⟨name, referrer, hmisses⟩
    cases hresult : description.materialize variant with
    | error error => exact ⟨error, rfl⟩
    | ok descriptor => exact absurd hmisses (not_misses_of_materialize hresult name referrer)

end PackageDescription

end PackagePlan
