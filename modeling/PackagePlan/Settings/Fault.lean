/-
  Why settings cannot be loaded, and the wording of each reason.
-/
import PackagePlan.Path
import PackagePlan.Toml.Fault
import PackagePlan.Tree.Basic

namespace PackagePlan

/-- What is wrong with the value of a setting. -/
inductive ValueFault where
  /-- A tools version of the wrong form. -/
  | toolsVersion (text : String)
  | emptyOs
  /-- A platform version of the wrong form. -/
  | platformVersion (text : String)
  /-- A truth value that is none of the words for one. -/
  | truth (text : String)
  /-- A platform with a version but no family, or the other way round. -/
  | halfPlatform
  deriving DecidableEq, Inhabited, Repr

/-- The fault in words. -/
def ValueFault.message : ValueFault → String
  | toolsVersion text => "'" ++ text ++ "' is not a version like 5.9"
  | emptyOs => "os cannot be empty"
  | platformVersion text => "'" ++ text ++ "' is not a version like 14.0"
  | truth text => "expected true or false, got '" ++ text ++ "'"
  | halfPlatform => "os and version must be given together"

/-- Why settings cannot be loaded. -/
inductive SettingsError where
  | notFound (file : Path)
  | unreadable (fault : FileFault)
  | malformed (file : Path) (fault : Toml.Fault)
  | invalidValue (field : String) (fault : ValueFault)
  | noHome
  deriving DecidableEq, Inhabited, Repr

namespace SettingsError

/-- The error in words. -/
def message : SettingsError → String
  | notFound file => "Configuration file not found: " ++ file.text
  | unreadable fault => "Failed to read configuration file: " ++ fault.message
  | malformed file fault => "Invalid TOML syntax in " ++ file.text ++ ": " ++ fault.message
  | invalidValue field fault => "Invalid value for '" ++ field ++ "': " ++ fault.message
  | noHome => "Home directory not found"

/-- The error in words, followed by what caused it. -/
def causes (error : SettingsError) : List String :=
  match error with
  | unreadable fault => [error.message, fault.message]
  | _ => [error.message]

end SettingsError

end PackagePlan
