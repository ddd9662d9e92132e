/-
  What is known of a package after the last attempt to resolve it. An attempt always starts
  afresh: nothing of an earlier one is kept.
-/
import PackagePlan.Plan.Resolution

namespace PackagePlan

/-- How far a resolution has come, or how it failed. -/
inductive ResolutionState where
  | unselected
  | variantChosen
  | graphValidated
  | ready
  | invalidVariant
  | platformUnsupported
  | cycleDetected
  | unresolvedReference
  | failed
  deriving DecidableEq, Inhabited, Repr

namespace ResolutionState

/-- Every state, the stages first and then the failures. -/
def all : List ResolutionState :=
  [unselected, variantChosen, graphValidated, ready, invalidVariant, platformUnsupported,
    cycleDetected, unresolvedReference, failed]

/-- The name of a state. -/
def render : ResolutionState → String
  | unselected => "unselected"
  | variantChosen => "variant-chosen"
  | graphValidated => "graph-validated"
  | ready => "ready"
  | invalidVariant => "invalid-variant"
  | platformUnsupported => "platform-unsupported"
  | cycleDetected => "cycle-detected"
  | unresolvedReference => "unresolved-reference"
  | failed => "failed"

/-- Whether a resolution has failed. -/
def isFailure : ResolutionState → Bool
  | unselected | variantChosen | graphValidated | ready => false
  | invalidVariant | platformUnsupported | cycleDetected | unresolvedReference | failed => true

/-- The state that an error leads to. -/
def ofError : BuildError → ResolutionState
  | .invalidVariant .. => invalidVariant
  | .platformUnsupported .. | .platformUnspecified .. => platformUnsupported
  | .cycleDetected .. => cycleDetected
  | .unresolvedReference .. => unresolvedReference
  | _ => failed

/-- The state that an attempt ends in. -/
def ofOutcome : Except BuildError Plan → ResolutionState
  | .ok _ => ready
  | .error error => ofError error

end ResolutionState

/-- A description at a package root, and the state of its resolution. -/
structure Resolver where
  description : PackageDescription
  packageRoot : Path := ⟨"."⟩
  schedule : Schedule := .sequential
  state : ResolutionState := .unselected

namespace Resolver

/-- Resolve the description, and the resolver that remembers how it went. -/
def resolve (resolver : Resolver) (tree : Tree) (toolsVersion : Version)
    (platform : Option Platform) : Except BuildError Plan × Resolver :=
  let outcome :=
    resolver.description.resolve tree resolver.packageRoot resolver.schedule toolsVersion platform
  (outcome, { resolver with state := .ofOutcome outcome })

end Resolver

end PackagePlan
