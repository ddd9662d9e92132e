/-
  One run of the program: from the arguments and what is around them to the texts that are
  printed, the exit code, and the tree that is left behind.
-/
import PackagePlan.Cli.Output

namespace PackagePlan.Cli

/-- What a run leaves behind. -/
structure Outcome where
  code : Nat
  stdout : String := ""
  stderr : String := ""
  tree : Tree
  /-- The file that was written, and its content. -/
  written : Option (Path × String) := none

/-- The part of an outcome that depends on the command. -/
structure Effect where
  stdout : String
  tree : Tree
  written : Option (Path × String) := none

/-- Short help. -/
def helpText : String :=
  unlines (
    ["Usage: " ++ programName ++ " [OPTIONS] <COMMAND>", "", "Commands:"]
    ++ CommandName.all.map (fun command => "  " ++ command.render)
    ++ ["", "Options:",
      "  -t, --tools-version <VERSION>", "  -p, --platform <OS:VERSION>", "      --root <DIR>",
      "  -d, --descriptor <FILE>", "      --sequential", "  -v, --verbose", "  -h, --help",
      "  -V, --version"])

/-- The words a shell can complete. -/
def completionText (shell : String) : String :=
  unlines (("# " ++ shell) :: CommandName.all.map CommandName.render)

/-- The version of the program, under the name of the command that was asked. -/
def versionText (command : Option CommandName) : String :=
  let suffix := match command with
    | some command => "-" ++ command.render
    | none => ""
  unlines [programName ++ suffix ++ " " ++ programVersion]

/-- The least important level that is logged, by how often more was asked for. -/
def levelOf : Nat → LogLevel
  | 0 => .warn
  | 1 => .debug
  | _ => .trace

/-- Whether a command works on a plan. -/
def Command.needsPlan : Command → Bool
  | plan .. | sources .. | products .. | inclusion .. | order .. => true
  | descriptor | variants | completions .. => false

/-- Perform the command that shows or writes a plan. -/
def performPlan (session : Session) (tree : Tree) (nanoseconds : Nat) (json write : Bool) :
    Except Failure Effect := do
  let plan ← session.resolve tree
  let text := (plan.toJson (some nanoseconds)).render
  let shown := if json then text ++ "\n" else planSummary plan nanoseconds
  if write then
    let (path, left) ← writePlan session tree text
    let notice := if json then "" else unlines ["Wrote " ++ path.text]
    return { stdout := notice ++ shown, tree := left, written := some (path, text) }
  else return { stdout := shown, tree }

/-- Perform a command in a session. -/
def perform (session : Session) (tree : Tree) (nanoseconds : Nat) :
    Command → Except Failure Effect
  | .plan json write => performPlan session tree nanoseconds json write
  | .sources target kind absolute json => do
    let plan ← session.resolve tree
    return { stdout := ← sourcesOutput plan target kind absolute json, tree }
  | .products json => do
    let plan ← session.resolve tree
    return { stdout := productsOutput plan json, tree }
  | .inclusion target header => do
    let plan ← session.resolve tree
    return { stdout := ← inclusionOutput plan target header, tree }
  | .order groups => do
    let plan ← session.resolve tree
    return { stdout := orderOutput plan groups, tree }
  | .descriptor => return { stdout := ← descriptorOutput session, tree }
  | .variants => .ok { stdout := variantsOutput session, tree }
  | .completions shell => .ok { stdout := completionText shell, tree }

/-- Carry out a request. -/
def Request.carryOut (request : Request) (around : Surroundings) (nanoseconds : Nat) :
    Except Failure Effect :=
  match request.command with
  | .completions shell => .ok { stdout := completionText shell, tree := around.tree }
  | command => do
    let session ← Session.load around request.overrides
    perform session around.tree nanoseconds command

/-- What carrying out a request reports. -/
def Request.report (request : Request) (around : Surroundings) : List LogEvent :=
  match request.command with
  | .completions _ => []
  | command =>
    Session.loadReport around request.overrides ++
      match Session.load around request.overrides with
      | .error _ => []
      | .ok session => if command.needsPlan then session.resolveReport around.tree else []

/-- Run the program. `threshold` says which events are logged, by the verbosity that was asked
for, and `nanoseconds` is the time a resolution takes. -/
def run (around : Surroundings) (threshold : Nat → Option LogLevel) (nanoseconds : Nat)
    (arguments : List String) : Outcome :=
  match Request.parse arguments with
  | .error .usage =>
    { code := 2, stderr := "error: the arguments are not understood\n\n" ++ helpText
      tree := around.tree }
  | .error .help => { code := 0, stdout := helpText, tree := around.tree }
  | .error (.version command) =>
    { code := 0, stdout := versionText command, tree := around.tree }
  | .ok request =>
    let log := unlines (LogEvent.lines (threshold request.verbosity) (request.report around))
    match request.carryOut around nanoseconds with
    | .ok effect =>
      { code := 0, stdout := effect.stdout, stderr := log, tree := effect.tree
        written := effect.written }
    | .error failure => { code := 1, stderr := log ++ failure.render, tree := around.tree }

end PackagePlan.Cli
