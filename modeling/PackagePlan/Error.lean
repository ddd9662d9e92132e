/-
  The causes for which a package cannot be described, resolved or planned, and their wording.
-/
import PackagePlan.Path
import PackagePlan.Platform
import PackagePlan.Toml.Fault
import PackagePlan.Tree.Basic

namespace PackagePlan

/-- Who refers to a target or product by name. -/
inductive Referrer where
  | target (name : String)
  | product (name : String)
  /-- The extra exclusions of a variant. -/
  | variant (name : String)
  /-- The list of products that a variant exposes. -/
  | productList (owner : String)
  deriving DecidableEq, Inhabited, Repr

/-- The referrer as messages name it. -/
def Referrer.render : Referrer → String
  | target name => "target '" ++ name ++ "'"
  | product name => "product '" ++ name ++ "'"
  | variant name => "variant '" ++ name ++ "'"
  | productList owner => "product list of variant '" ++ owner ++ "'"

/-- What is wrong with the declaration of a target. -/
inductive TargetFault where
  | emptyName
  | emptyPath (target : String)
  /-- The target path is absolute or climbs. -/
  | pathOutside (target : String) (path : Path)
  /-- A path inside the target is absolute or climbs. -/
  | memberOutside (target : String) (path : Path)
  | emptyDependency (target : String)
  /-- A file was found that does not lie under the target directory as spelt. -/
  | strayFile (file root : Path)
  deriving DecidableEq, Inhabited, Repr

namespace TargetFault

/-- The fault in words. -/
def message : TargetFault → String
  | emptyName => "Target name cannot be empty"
  | emptyPath target => "Target '" ++ target ++ "' has an empty path"
  | pathOutside target path =>
    "Target '" ++ target ++ "' path must be relative to the package root: " ++ path.text
  | memberOutside target path =>
    "Target '" ++ target ++ "' refers to a path outside its directory: " ++ path.text
  | emptyDependency target => "Target '" ++ target ++ "' has an empty dependency name"
  | strayFile file root => file.text ++ " is outside target directory " ++ root.text

end TargetFault

/-- What is wrong with the wildcards of a pattern. -/
inductive WildcardFault where
  /-- A run of more than two stars. -/
  | run
  /-- A double star that is only part of a path component. -/
  | recursive
  /-- A bracket without its partner. -/
  | range
  deriving DecidableEq, Inhabited, Repr

/-- The fault in words. -/
def WildcardFault.message : WildcardFault → String
  | run => "wildcards are either regular \x60*\x60 or recursive \x60**\x60"
  | recursive => "recursive wildcards must form a single path component"
  | range => "invalid range pattern"

/-- What is wrong with an exclusion pattern. -/
inductive PatternFault where
  | absolute
  | climbing
  /-- Nothing is left once the spelling of the target directory itself is removed. -/
  | wholeTarget
  /-- The wildcards are wrong at a position, counted in characters. -/
  | wildcard (position : Nat) (fault : WildcardFault)
  deriving DecidableEq, Inhabited, Repr

/-- The fault in words. -/
def PatternFault.message : PatternFault → String
  | absolute => "pattern must be relative to the target directory"
  | climbing => "pattern must not contain \x60..\x60"
  | wholeTarget => "pattern would exclude the whole target"
  | wildcard position fault =>
    "Pattern syntax error near position " ++ toString position ++ ": " ++ fault.message

/-- What is wrong with a description as a whole. -/
inductive DescriptionFault where
  | unknownOs (text : String)
  /-- A platform without a separator between family and version. -/
  | platformForm (text : String)
  | repeatedProduct (name : String)
  | emptyProduct (name : String)
  | sharedThreshold (first second : String) (threshold : Version)
  deriving DecidableEq, Inhabited, Repr

/-- The fault in words. -/
def DescriptionFault.message : DescriptionFault → String
  | unknownOs text => "unknown operating system '" ++ text ++ "'"
  | platformForm text => "platform '" ++ text ++ "' must be written as <os>:<version>"
  | repeatedProduct name => "product '" ++ name ++ "' is declared more than once"
  | emptyProduct name => "product '" ++ name ++ "' has no targets"
  | sharedThreshold first second threshold =>
    "variants '" ++ first ++ "' and '" ++ second ++ "' share the tools version threshold "
      ++ threshold.render

/-- Why a package cannot be described, resolved or planned. -/
inductive BuildError where
  | duplicateTarget (name : String)
  | unresolvedReference (name : String) (referrer : Referrer)
  | cycleDetected (cycle : List String)
  | missingSourceRoot (target : String) (path : Path)
  | invisibleHeader (target : String) (header : Path) (owner : String)
  | headerNotFound (target : String) (header : Path)
  | platformUnsupported (platform : Platform) (minimum : Version)
  | platformUnspecified (variant : String) (constrained : List (OsFamily × Version))
  | invalidVariant (capability : Version)
  | overlappingSourceRoots (first second : String) (path : Path)
  | targetNotFound (target : String)
  | invalidTarget (fault : TargetFault)
  | invalidPattern (target pattern : String) (fault : PatternFault)
  | invalidVersion (text : String)
  | invalidDescriptor (fault : DescriptionFault)
  | descriptorRead (path : Path) (fault : FileFault)
  | descriptorParse (fault : Toml.Fault)
  /-- A directory that cannot be read where files are looked for. -/
  | unreadable (path : Path) (fault : FileFault)
  deriving DecidableEq, Inhabited, Repr

namespace BuildError

/-- The members of a cycle, with the first one again at the end. -/
def renderCycle (cycle : List String) : String :=
  match cycle.head? with
  | some first => " -> ".intercalate cycle ++ " -> " ++ first
  | none => "unknown cycle"

/-- Families with their minimums, as messages list them. -/
def renderMinimums (minimums : List (OsFamily × Version)) : String :=
  ", ".intercalate (minimums.map fun m => m.1.render ++ " " ++ m.2.render)

/-- The cause in words. -/
def message : BuildError → String
  | duplicateTarget name => "Duplicate target '" ++ name ++ "': target names must be unique"
  | unresolvedReference name referrer =>
    "Unresolved reference to target '" ++ name ++ "' (referenced by " ++ referrer.render ++ ")"
  | cycleDetected cycle => "Dependency cycle detected: " ++ renderCycle cycle
  | missingSourceRoot target path =>
    "Source root for target '" ++ target ++ "' does not exist: " ++ path.text
  | invisibleHeader target header owner =>
    "Target '" ++ target ++ "' cannot include '" ++ header.text
      ++ "': it is not a public header of '" ++ owner ++ "'"
  | headerNotFound target header =>
    "Header '" ++ header.text ++ "' included by target '" ++ target
      ++ "' was not found in any target"
  | platformUnsupported platform minimum =>
    "Platform " ++ platform.render ++ " is not supported: requires " ++ platform.os.render ++ " "
      ++ minimum.render ++ " or newer"
  | platformUnspecified variant constrained =>
    "Variant '" ++ variant ++ "' constrains platforms (" ++ renderMinimums constrained
      ++ "); a target platform is required"
  | invalidVariant capability =>
    "Invalid descriptor variant: tools version '" ++ capability.render
      ++ "' matches no known variant"
  | overlappingSourceRoots first second path =>
    "Targets '" ++ first ++ "' and '" ++ second ++ "' have overlapping source roots at "
      ++ path.text
  | targetNotFound target => "Target not found: " ++ target
  | invalidTarget fault => "Invalid target configuration: " ++ fault.message
  | invalidPattern target pattern fault =>
    "Invalid exclusion pattern '" ++ pattern ++ "' in target '" ++ target ++ "': "
      ++ fault.message
  | invalidVersion text => "Invalid version '" ++ text ++ "'"
  | invalidDescriptor fault => "Invalid descriptor: " ++ fault.message
  | descriptorRead path fault =>
    "Failed to read descriptor at " ++ path.text ++ ": " ++ fault.message
  | descriptorParse fault => "Failed to parse descriptor: " ++ fault.message
  | unreadable path fault =>
    "I/O error at " ++ path.text ++ ": IO error for operation on " ++ path.text ++ ": "
      ++ fault.message

end BuildError

/-- Read a version, or name the text that is none. -/
def Version.parse (text : String) : Except BuildError Version :=
  match Version.parse? text with
  | some version => .ok version
  | none => .error (.invalidVersion text)

/-- Read a family, or name the text that is none. -/
def OsFamily.parse (text : String) : Except BuildError OsFamily :=
  match OsFamily.parse? text with
  | some family => .ok family
  | none => .error (.invalidDescriptor (.unknownOs text))

/-- Read a platform written as a family and a version with a separator between. -/
def Platform.parse (text : String) : Except BuildError Platform :=
  match Platform.split? text with
  | none => .error (.invalidDescriptor (.platformForm text))
  | some (os, version) => do
    let os ← OsFamily.parse os
    let version ← Version.parse version
    return ⟨os, version⟩

end PackagePlan
