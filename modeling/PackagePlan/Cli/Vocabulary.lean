/-
  The words of the command line: the commands, the options that take a value, and the flags, with
  the spellings each of them has.
-/
import PackagePlan.Path

namespace PackagePlan.Cli

/-- The name of the program. -/
def programName : String := "gstack"

/-- The version of the program. -/
def programVersion : String := "0.1.0"

/-- The commands. -/
inductive CommandName where
  | plan
  | sources
  | products
  | inclusion
  | order
  | descriptor
  | variants
  | completions
  deriving DecidableEq, Inhabited, Repr

namespace CommandName

/-- Every command. -/
def all : List CommandName :=
  [plan, sources, products, inclusion, order, descriptor, variants, completions]

/-- The word for a command. -/
def render : CommandName → String
  | plan => "plan"
  | sources => "sources"
  | products => "products"
  | inclusion => "include"
  | order => "order"
  | descriptor => "descriptor"
  | variants => "variants"
  | completions => "completions"

/-- The short words for commands. -/
def aliases : List (String × CommandName) := [("p", plan), ("s", sources)]

/-- The command that a word stands for. -/
def ofWord? (word : String) : Option CommandName :=
  match all.find? (·.render == word) with
  | some command => some command
  | none => aliases.lookup word

/-- How many arguments without a dash a command takes. -/
def arity : CommandName → Nat
  | inclusion => 2
  | sources | completions => 1
  | plan | products | order | descriptor | variants => 0

end CommandName

/-- The word that asks for help on a command. -/
def helpWord : String := "help"

/-- The shells that completions can be written for. -/
def shells : List String := ["bash", "elvish", "fish", "powershell", "zsh"]

/-- The options that take a value. Each may stand before or after the command. -/
inductive ValueOption where
  | toolsVersion
  | platform
  | root
  | descriptor
  deriving DecidableEq, Inhabited, Repr

/-- Whether the value of an option is a path, which must not be empty. -/
def ValueOption.isPath : ValueOption → Bool
  | toolsVersion | platform => false
  | root | descriptor => true

/-- The flags. -/
inductive Flag where
  | sequential
  | verbose
  | help
  | version
  | json
  | write
  | headers
  | units
  | absolute
  | groups
  deriving DecidableEq, Inhabited, Repr

/-- What a name behind dashes stands for. -/
inductive Switch where
  | option (option : ValueOption)
  | flag (flag : Flag)
  deriving DecidableEq, Inhabited, Repr

/-- The long names that are known everywhere. -/
def commonLongNames : List (String × Switch) := [
  ("tools-version", .option .toolsVersion),
  ("platform", .option .platform),
  ("root", .option .root),
  ("descriptor", .option .descriptor),
  ("sequential", .flag .sequential),
  ("verbose", .flag .verbose),
  ("help", .flag .help),
  ("version", .flag .version)]

/-- The short names that are known everywhere. -/
def commonShortNames : List (Char × Switch) := [
  ('t', .option .toolsVersion),
  ('p', .option .platform),
  ('d', .option .descriptor),
  ('v', .flag .verbose),
  ('h', .flag .help),
  ('V', .flag .version)]

namespace CommandName

/-- The long names that a command adds. -/
def longNames : CommandName → List (String × Switch)
  | plan => [("json", .flag .json), ("write", .flag .write)]
  | sources => [
      ("headers", .flag .headers), ("units", .flag .units), ("absolute", .flag .absolute),
      ("json", .flag .json)]
  | products => [("json", .flag .json)]
  | order => [("groups", .flag .groups)]
  | inclusion | descriptor | variants | completions => []

/-- The short names that a command adds. -/
def shortNames : CommandName → List (Char × Switch)
  | plan => [('w', .flag .write)]
  | order => [('g', .flag .groups)]
  | sources | products | inclusion | descriptor | variants | completions => []

end CommandName

/-- What a long name stands for, in front of the command or behind it. -/
def longSwitch? (command : Option CommandName) (name : String) : Option Switch :=
  (commonLongNames ++ ((command.map CommandName.longNames).getD [])).lookup name

/-- What a short name stands for, in front of the command or behind it. -/
def shortSwitch? (command : Option CommandName) (name : Char) : Option Switch :=
  (commonShortNames ++ ((command.map CommandName.shortNames).getD [])).lookup name

end PackagePlan.Cli
