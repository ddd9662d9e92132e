/-
  The part a file plays in a compilation, which its extension decides.
-/
import PackagePlan.Path

namespace PackagePlan

/-- The part a file plays in a compilation. -/
inductive FileKind where
  /-- A translation unit, which the compiler is run on. -/
  | unit
  /-- A header, which is reached by inclusion. -/
  | header
  /-- Anything else. -/
  | other
  deriving DecidableEq, Inhabited, Repr

namespace FileKind

/-- The extensions of translation units. -/
def unitExtensions : List String := ["c", "m", "cc", "cpp", "cxx", "mm", "s", "S"]

/-- The extensions of headers. -/
def headerExtensions : List String := ["h", "hh", "hpp", "inc"]

/-- The kind of a file. -/
def of (file : Path) : FileKind :=
  match file.extension? with
  | some extension =>
    if extension ∈ unitExtensions then unit
    else if extension ∈ headerExtensions then header
    else other
  | none => other

/-- The name of a kind. -/
def render : FileKind → String
  | unit => "compile-unit"
  | header => "header"
  | other => "other"

end FileKind

end PackagePlan
