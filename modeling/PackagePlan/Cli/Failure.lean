/-
  Failures of a command: what could not be done, followed by what caused it, each on lines of its
  own.
-/
import PackagePlan.Error
import PackagePlan.Settings.Fault

namespace PackagePlan.Cli

/-- A failure and its causes, the outermost first. -/
structure Failure where
  outermost : String
  causes : List String := []
  deriving DecidableEq, Inhabited, Repr

namespace Failure

/-- A failure that something else caused. -/
def within (failure : Failure) (outermost : String) : Failure :=
  ⟨outermost, failure.outermost :: failure.causes⟩

/-- The failure of a broken rule of the package. -/
def ofBuild (error : BuildError) : Failure := ⟨error.message, []⟩

/-- The failure of settings that cannot be loaded. -/
def ofSettings (error : SettingsError) : Failure :=
  match error.causes with
  | [] => ⟨error.message, []⟩
  | outermost :: causes => ⟨outermost, causes⟩

/-- The failure of a file that cannot be written. -/
def ofFile (fault : FileFault) : Failure := ⟨fault.message, []⟩

/-- A text of several lines, with something in front of the first and of the others. -/
def indented (first others text : String) : String :=
  match (Text.fields '\n' text.toList).map String.ofList with
  | [] => first
  | line :: lines => first ++ line ++ String.join (lines.map fun l => "\n" ++ others ++ l)

/-- Causes on lines of their own, numbered from a first number. -/
def numbered (number : Nat) : List String → String
  | [] => ""
  | cause :: rest =>
    let digits := toString number
    let lead := String.ofList (List.replicate (5 - digits.length) ' ') ++ digits ++ ": "
    "\n" ++ indented lead "       " cause ++ numbered (number + 1) rest

/-- The failure as it is shown. -/
def render (failure : Failure) : String :=
  let head := "Error: " ++ failure.outermost
  match failure.causes with
  | [] => head ++ "\n"
  | [cause] => head ++ "\n\nCaused by:\n" ++ indented "    " "    " cause ++ "\n"
  | causes => head ++ "\n\nCaused by:" ++ numbered 0 causes ++ "\n"

end Failure

end PackagePlan.Cli
