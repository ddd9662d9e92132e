/-
  Reading a command line. Arguments are taken in from left to right, first those in front of the
  command, then those behind it. A value is only judged when the next option or flag comes or the
  arguments end, so a request for help behind it can come too late.
-/
import PackagePlan.Cli.Vocabulary
import PackagePlan.Source.Kind
import PackagePlan.Text.Fields

namespace PackagePlan.Cli

/-- Why a command line does not lead to a command. -/
inductive Ending where
  /-- The command line is wrong. -/
  | usage
  /-- Help is asked for. -/
  | help
  /-- The version is asked for, of the program or of a command. -/
  | version (command : Option CommandName)
  deriving DecidableEq, Inhabited, Repr

/-- What has been taken in but not judged. -/
inductive Pending where
  | option (option : ValueOption) (value : Option String)
  | operand (value : String)
  deriving DecidableEq, Inhabited, Repr

/-- What has been read in front of the command, or behind it. -/
structure Reading where
  options : List (ValueOption × String) := []
  flags : List Flag := []
  verbosity : Nat := 0
  /-- The arguments without a dash. -/
  operands : List String := []
  pending : Option Pending := none
  /-- Whether a double dash has come, behind which nothing is an option. -/
  trailing : Bool := false
  deriving Inhabited

/-- Whether a command takes a text as its operand number `index`. -/
def allowsOperand (command : Option CommandName) (index : Nat) (value : String) : Bool :=
  match command with
  | some .inclusion => index ≠ 1 || !value.isEmpty
  | some .completions => shells.contains value
  | _ => true

namespace Reading

/-- Add the value of an option, which may be given once. -/
def addOption (reading : Reading) (option : ValueOption) (value : String) :
    Except Ending Reading :=
  if (reading.options.lookup option).isSome then .error .usage
  else if option.isPath && value.isEmpty then .error .usage
  else .ok { reading with options := reading.options ++ [(option, value)] }

/-- Judge what is pending. -/
def settle (command : Option CommandName) (reading : Reading) : Except Ending Reading :=
  let free := { reading with pending := none }
  match reading.pending with
  | none => .ok free
  | some (.option _ none) => .error .usage
  | some (.option option (some value)) => free.addOption option value
  | some (.operand value) =>
    if allowsOperand command reading.operands.length value then
      .ok { free with operands := reading.operands ++ [value] }
    else .error .usage

/-- Whether an option waits for its value. -/
def isWaiting (reading : Reading) : Bool :=
  match reading.pending with
  | some (.option _ none) => true
  | _ => false

/-- Take in a flag. All but the one for verbosity may be given once. -/
def addFlag (command : Option CommandName) (reading : Reading) (flag : Flag) :
    Except Ending Reading := do
  let reading ← reading.settle command
  match flag with
  | .help => throw .help
  | .version => throw (.version command)
  | .verbose => return { reading with verbosity := reading.verbosity + 1 }
  | _ =>
    if flag ∈ reading.flags then throw .usage
    else return { reading with flags := reading.flags ++ [flag] }

/-- Take in an option whose value stands in the same argument, or is still to come. -/
def openOption (command : Option CommandName) (reading : Reading) (option : ValueOption)
    (value : Option String) : Except Ending Reading := do
  let reading ← reading.settle command
  match value with
  | some value => reading.addOption option value
  | none => return { reading with pending := some (.option option none) }

/-- Take in a long name, perhaps with an equals sign and a value. -/
def addLong (command : Option CommandName) (reading : Reading) (s : List Char) :
    Except Ending Reading :=
  let (name, value) :=
    match Text.splitFirst? (· == '=') s with
    | some (name, value) => (String.ofList name, some (String.ofList value))
    | none => (String.ofList s, none)
  match longSwitch? command name, value with
  | none, _ => .error .usage
  | some (.option option), value => reading.openOption command option value
  | some (.flag _), some _ => .error .usage
  | some (.flag flag), none => reading.addFlag command flag

/-- The value that follows a short name in the same argument. -/
def attachedValue : List Char → Option String
  | [] => none
  | '=' :: rest => some (String.ofList rest)
  | s => some (String.ofList s)

/-- Take in a cluster of short names; one that takes a value ends it. -/
def addShort (command : Option CommandName) (reading : Reading) :
    List Char → Except Ending Reading
  | [] => .ok reading
  | c :: rest =>
    match shortSwitch? command c with
    | none => .error .usage
    | some (.option option) => reading.openOption command option (attachedValue rest)
    | some (.flag flag) => do
      let reading ← reading.addFlag command flag
      reading.addShort command rest

/-- Whether a command takes another operand, counting one that is pending. -/
def takesOperand (command : Option CommandName) (reading : Reading) : Bool :=
  decide (reading.operands.length < (command.map CommandName.arity).getD 0)

/-- Take in an argument without a dash. -/
def addOperand (command : Option CommandName) (reading : Reading) (value : String) :
    Except Ending Reading := do
  let reading ← reading.settle command
  if reading.takesOperand command then
    return { reading with pending := some (.operand value) }
  else throw .usage

/-- Take in an argument in which no option is looked for. -/
def addWord (command : Option CommandName) (reading : Reading) (word : String) :
    Except Ending Reading :=
  match reading.pending with
  | some (.option option none) =>
    .ok { reading with pending := some (.option option (some word)) }
  | _ => reading.addOperand command word

/-- Take in an argument. -/
def add (command : Option CommandName) (reading : Reading) (argument : String) :
    Except Ending Reading :=
  if reading.trailing then reading.addOperand command argument
  else if argument = "--" then .ok { reading with trailing := true }
  else match argument.toList with
    | '-' :: '-' :: rest => reading.addLong command rest
    | '-' :: c :: rest => reading.addShort command (c :: rest)
    | _ => reading.addWord command argument

/-- Take in all arguments and judge what is left. -/
def addAll (command : Option CommandName) (reading : Reading) :
    List String → Except Ending Reading
  | [] => reading.settle command
  | argument :: rest => do
    let reading ← reading.add command argument
    reading.addAll command rest

/-- Take in the arguments in front of the command. What is returned besides is the command and
the arguments behind it; none when there is no command. -/
def addUpToCommand (reading : Reading) :
    List String → Except Ending (Reading × Option (CommandName × List String))
  | [] => .ok (reading, none)
  | argument :: rest =>
    if !reading.trailing && !reading.isWaiting && argument = helpWord then
      match rest with
      | [] => .error .help
      | [word] =>
        if word = helpWord || (CommandName.ofWord? word).isSome then .error .help
        else .error .usage
      | _ => .error .usage
    else match CommandName.ofWord? argument with
      | some command =>
        if !reading.trailing && !reading.isWaiting then .ok (reading, some (command, rest))
        else do
          let reading ← reading.add none argument
          reading.addUpToCommand rest
      | none => do
        let reading ← reading.add none argument
        reading.addUpToCommand rest

end Reading

/-- What the options say in place of the settings. -/
structure Overrides where
  toolsVersion : Option String := none
  platform : Option String := none
  root : Option Path := none
  descriptor : Option Path := none
  /-- Whether targets are to be resolved one at a time. -/
  sequential : Bool := false
  deriving DecidableEq, Inhabited, Repr

/-- A command with its own arguments. -/
inductive Command where
  | plan (json write : Bool)
  /-- The files of a target, perhaps of one kind only. -/
  | sources (target : String) (kind : Option FileKind) (absolute json : Bool)
  | products (json : Bool)
  | inclusion (target : String) (header : Path)
  | order (groups : Bool)
  | descriptor
  | variants
  | completions (shell : String)
  deriving DecidableEq, Inhabited, Repr

/-- What a command line asks for. -/
structure Request where
  overrides : Overrides
  verbosity : Nat
  command : Command
  deriving DecidableEq, Inhabited, Repr

/-- The command of a name with what was read behind it, if nothing is missing or contradictory. -/
def Command.of? (name : CommandName) (reading : Reading) : Option Command :=
  let has := fun flag => decide (flag ∈ reading.flags)
  match name, reading.operands with
  | .plan, [] => some (.plan (has .json) (has .write))
  | .sources, [target] =>
    let kind :=
      if has .headers then some FileKind.header
      else if has .units then some FileKind.unit
      else none
    if has .headers && has .units then none
    else some (.sources target kind (has .absolute) (has .json))
  | .products, [] => some (.products (has .json))
  | .inclusion, [target, header] => some (.inclusion target ⟨header⟩)
  | .order, [] => some (.order (has .groups))
  | .descriptor, [] => some .descriptor
  | .variants, [] => some .variants
  | .completions, [shell] => some (.completions shell)
  | _, _ => none

/-- The overrides of what was read in front of the command and behind it; what stands behind it
goes before. -/
def Overrides.of (front behind : Reading) : Overrides :=
  let value := fun option => behind.options.lookup option <|> front.options.lookup option
  { toolsVersion := value .toolsVersion
    platform := value .platform
    root := (value .root).map Path.mk
    descriptor := (value .descriptor).map Path.mk
    sequential := decide (Flag.sequential ∈ front.flags ++ behind.flags) }

/-- Read a command line. -/
def Request.parse (arguments : List String) : Except Ending Request := do
  let (front, found) ← Reading.addUpToCommand {} arguments
  match found with
  | none => throw .usage
  | some (name, rest) =>
    let behind ← Reading.addAll (some name) {} rest
    match Command.of? name behind with
    | none => throw .usage
    | some command =>
      let front ← front.settle none
      return {
        overrides := .of front behind
        verbosity := if behind.verbosity = 0 then front.verbosity else behind.verbosity
        command }

end PackagePlan.Cli
