/-
  Why a TOML text is refused: it is no TOML, or the values it holds are not the ones wanted.
-/
namespace PackagePlan.Toml

/-- A reason to refuse a TOML text. -/
inductive Fault where
  /-- The text is not well formed, or defines a key twice. -/
  | malformed
  /-- A value is of another kind than the one wanted. -/
  | mismatch
  /-- A table lacks a key that it must have. -/
  | missingField (name : String)
  /-- A table has a key that is none of those it may have. -/
  | unknownField (name : String) (known : List String)
  /-- A text is none of the words that are allowed. -/
  | unknownVariant (name : String) (known : List String)
  /-- A value is of the right kind but not acceptable. -/
  | rejected (reason : String)
  deriving DecidableEq, Inhabited, Repr

/-- A name between grave accents. -/
def accented (name : String) : String := "\x60" ++ name ++ "\x60"

/-- The names of which one was wanted. -/
def alternatives : List String → String
  | [only] => accented only
  | [first, second] => accented first ++ " or " ++ accented second
  | names => "one of " ++ ", ".intercalate (names.map accented)

/-- The reason in words. -/
def Fault.message : Fault → String
  | malformed => "TOML syntax error"
  | mismatch => "invalid type"
  | missingField name => "missing field " ++ accented name
  | unknownField name known =>
    "unknown field " ++ accented name ++ ", expected " ++ alternatives known
  | unknownVariant name known =>
    "unknown variant " ++ accented name ++ ", expected " ++ alternatives known
  | rejected reason => reason

end PackagePlan.Toml
