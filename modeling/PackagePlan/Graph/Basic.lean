/-
  The dependency graph of a package: its targets in declaration order, each valid and under a
  name of its own. Main statements: targets without a first fault are valid, and their names are
  distinct.
-/
import PackagePlan.Target

namespace PackagePlan

/-- The names of targets, as declared. -/
def Target.names (targets : List Target) : List String := targets.map (·.name)

/-- Targets in declaration order, each valid and no two under one name. -/
structure Graph where
  targets : List Target
  valid : ∀ target ∈ targets, target.isValid = true
  distinct : (Target.names targets).Nodup

namespace Graph

/-- The first target that is not valid or repeats a name, where `seen` holds the names before. -/
def firstFault? (seen : List String) : List Target → Option BuildError
  | [] => none
  | target :: rest =>
    match target.fault? with
    | some fault => some (.invalidTarget fault)
    | none =>
      if target.name ∈ seen then some (.duplicateTarget target.name)
      else firstFault? (target.name :: seen) rest

theorem valid_of_firstFault? {seen : List String} {targets : List Target}
    (h : firstFault? seen targets = none) : ∀ target ∈ targets, target.isValid = true := by
  induction targets generalizing seen with
  | nil => simp
  | cons first rest ih =>
    simp only [firstFault?] at h
    split at h
    · exact absurd h (by simp)
    · next hfault =>
      split at h
      · exact absurd h (by simp)
      · intro target htarget
        rcases List.mem_cons.1 htarget with rfl | htarget
        · simp [Target.isValid, hfault]
        · exact ih h target htarget

theorem distinct_of_firstFault? {seen : List String} {targets : List Target}
    (h : firstFault? seen targets = none) :
    (Target.names targets).Nodup ∧ ∀ name ∈ Target.names targets, name ∉ seen := by
  induction targets generalizing seen with
  | nil => simp [Target.names]
  | cons first rest ih =>
    simp only [firstFault?] at h
    split at h
    · exact absurd h (by simp)
    · split at h
      · exact absurd h (by simp)
      · next hseen =>
        obtain ⟨hnodup, hfresh⟩ := ih h
        refine ⟨List.nodup_cons.2 ⟨fun hmem => ?_, hnodup⟩, fun name hname => ?_⟩
        · exact hfresh _ hmem (List.mem_cons_self ..)
        · rcases List.mem_cons.1 hname with rfl | hname
          · exact hseen
          · exact fun hs => hfresh _ hname (List.mem_cons_of_mem _ hs)

/-- The graph of a list of targets, or the first fault of a target, or the first repeated name. -/
def ofTargets (targets : List Target) : Except BuildError Graph :=
  match h : firstFault? [] targets with
  | some error => .error error
  | none =>
    .ok { targets, valid := valid_of_firstFault? h, distinct := (distinct_of_firstFault? h).1 }

variable (graph : Graph)

/-- The declared names, in order. -/
def names : List String := Target.names graph.targets

/-- The target of a name. -/
def target? (name : String) : Option Target := graph.targets.find? (·.name == name)

/-- Whether a target of that name is declared. -/
def declares (name : String) : Bool := (graph.target? name).isSome

/-- The number of targets. -/
def size : Nat := graph.targets.length

/-- Whether no target is declared. -/
def isEmpty : Bool := graph.targets.isEmpty

/-- The first dependency that is not declared, as an error that names the target listing it. -/
def firstUnresolved? : List Target → Option BuildError
  | [] => none
  | target :: rest =>
    match target.dependencies.find? fun name => !graph.declares name with
    | some name => some (.unresolvedReference name (.target target.name))
    | none => firstUnresolved? rest

/-- The first fault in a list of products: a repeated name, a product without targets, or a
member that is not declared. `seen` holds the names before. -/
def firstProductFault? (seen : List String) : List Product → Option BuildError
  | [] => none
  | product :: rest =>
    if product.name ∈ seen then some (.invalidDescriptor (.repeatedProduct product.name))
    else if product.targets.isEmpty then some (.invalidDescriptor (.emptyProduct product.name))
    else match product.targets.find? fun name => !graph.declares name with
      | some name => some (.unresolvedReference name (.product product.name))
      | none => firstProductFault? (product.name :: seen) rest

/-- Check that product names are distinct and that every product has declared members only. -/
def checkProducts (products : List Product) : Except BuildError Unit :=
  match graph.firstProductFault? [] products with
  | some error => .error error
  | none => .ok ()

end Graph

end PackagePlan
