/-
  The command line program. The names of the tree come on standard input, one path a line, a
  directory with a slash behind it; contents are read where the files lie. Everything else is
  decided by `Cli.run`.
-/
import PackagePlan.Cli.Run

namespace PackagePlan.Cli

/-- The variables that hold settings. -/
def readEnvironment : IO Environment := do
  return {
    toolsVersion := ← IO.getEnv "GSTACK_TOOLS_VERSION"
    platformOs := ← IO.getEnv "GSTACK_PLATFORM_OS"
    platformVersion := ← IO.getEnv "GSTACK_PLATFORM_VERSION"
    parallel := ← IO.getEnv "GSTACK_PARALLEL"
    home := (← IO.getEnv "HOME").map Path.mk }

/-- The content of the file at a path, if it can be read as text. -/
def readContent (path : Path) : IO (Option String) := do
  match ← (IO.FS.readFile path.text).toBaseIO with
  | .ok content => return some content
  | .error _ => return none

/-- The tree with a directory, or as it was when there is no room for one. -/
def withDirectory (tree : Tree) (path : Path) : Tree :=
  (tree.makeDirectories path).toOption.getD tree

/-- The tree with a file and the directories above it. -/
def withFile (tree : Tree) (path : Path) (content : String) : Tree :=
  let grown := match path.parent? with
    | some above => if above.isEmpty then tree else withDirectory tree above
    | none => tree
  (grown.write path content).toOption.getD grown

/-- The tree with what a line of the listing names. -/
def addListed (tree : Tree) (line : String) : IO Tree := do
  if line.isEmpty then return tree
  else if line.endsWith "/" then return withDirectory tree ⟨line⟩
  else return withFile tree ⟨line⟩ ((← readContent ⟨line⟩).getD "")

/-- The tree with a file that need not be listed, if there is one at the path. -/
def addUnlisted (tree : Tree) (path : Path) : IO Tree := do
  match ← readContent path with
  | some content => return withFile tree path content
  | none => return tree

/-- The files that settings and a description may be read from without being listed. -/
def unlisted (environment : Environment) (directory : Path) (arguments : List String) :
    List Path :=
  let named := match Request.parse arguments with
    | .ok request => request.overrides.descriptor.toList
    | .error _ => []
  directory.ancestors.map (·.join projectFile) ++ (environment.home.map userFileBelow).toList
    ++ [directory.join conventionalFile] ++ named

/-- The lines of a stream up to its end. -/
partial def readLines (stream : IO.FS.Stream) (before : List String) : IO (List String) := do
  let line ← stream.getLine
  if line.isEmpty then return before.reverse
  else
    let text := if line.endsWith "\n" then (line.dropEnd 1).toString else line
    readLines stream (text :: before)

/-- What the program finds around it. -/
def readSurroundings (arguments : List String) : IO Surroundings := do
  let environment ← readEnvironment
  let directory : Path := ⟨toString (← IO.currentDir)⟩
  let root := withDirectory {} directory
  let here := { root with workingDirectory := (root.locate directory).toOption.getD [] }
  let listed ← (← readLines (← IO.getStdin) []).foldlM addListed here
  let tree ← (unlisted environment directory arguments).foldlM addUnlisted listed
  return { tree, environment, directory }

/-- The least important level that is logged goes with the verbosity. -/
def threshold (verbosity : Nat) : Option LogLevel := some (levelOf verbosity)

/-- Run the program once to see how long it takes, and once more to print that. -/
def timed (around : Surroundings) (arguments : List String) : IO Outcome := do
  let began ← IO.monoNanosNow
  let trial := run around threshold 0 arguments
  if trial.code = 0 then
    let ended ← IO.monoNanosNow
    return run around threshold (ended - began) arguments
  else return trial

/-- Write the file that a run leaves behind. -/
def store (outcome : Outcome) : IO Unit := do
  match outcome.written with
  | none => return
  | some (path, content) =>
    match path.parent? with
    | some above => if !above.isEmpty then IO.FS.createDirAll above.text
    | none => pure ()
    IO.FS.writeFile path.text content

end PackagePlan.Cli

open PackagePlan.Cli in
/-- Run the program on its arguments. -/
def main (arguments : List String) : IO UInt32 := do
  let around ← readSurroundings arguments
  let outcome ← timed around arguments
  store outcome
  (← IO.getStderr).putStr outcome.stderr
  (← IO.getStdout).putStr outcome.stdout
  return outcome.code.toUInt32
