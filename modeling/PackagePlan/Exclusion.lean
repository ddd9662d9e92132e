/-
  Exclusion patterns: globs, relative to the directory of a target, that take files out of its
  source set. A pattern that matches a directory takes out everything below it.
-/
import PackagePlan.Glob.Pattern
import PackagePlan.Path
import PackagePlan.Text.Quoted

namespace PackagePlan

/-- An exclusion pattern as declared, and the glob it stands for. -/
structure Exclusion where
  text : String
  glob : Glob
  deriving DecidableEq, Inhabited, Repr

namespace Exclusion

/-- The characters of a pattern without separators at the end and without one `./` in front. -/
def core (s : List Char) : List Char :=
  match (s.reverse.dropWhile (· == '/')).reverse with
  | '.' :: '/' :: rest => rest
  | rest => rest

/-- The glob of a written pattern, which must stay inside the target and not name all of it. -/
def globOf (text : String) : Except PatternFault Glob :=
  let s := text.toList
  if s.head? == some '/' then .error .absolute
  else if (Text.fields '/' s).contains ['.', '.'] then .error .climbing
  else
    let inner := core s
    if inner.isEmpty || inner == ['.'] then .error .wholeTarget
    else Glob.parse (String.ofList inner)

/-- Read a pattern that a target declares. -/
def parse (target text : String) : Except BuildError Exclusion :=
  match globOf text with
  | .ok glob => .ok ⟨text, glob⟩
  | .error fault => .error (.invalidPattern target text fault)

/-- The pattern for diagnostics. -/
def describe (exclusion : Exclusion) : String :=
  "ExclusionPattern(" ++ Text.quoted exclusion.text ++ ")"

/-- Whether a path in the target directory is excluded: the pattern matches the path or a
directory above it. -/
def covers (exclusion : Exclusion) (path : Path) : Bool :=
  path.ancestors.any fun above => !above.isEmpty && exclusion.glob.acceptsText above.text

end Exclusion

end PackagePlan
