/-
  Dotted version numbers of one to three components. They are compared component by component
  from the left, and their normal form has no patch when it is zero.
-/
import PackagePlan.Text.Blank
import PackagePlan.Text.Fields

namespace PackagePlan

/-- A natural number as a component, for versions that are put together from numbers where the
namespace is open. What does not fit wraps, so a text is read by `Version.component?`. -/
scoped instance coeNat : Coe Nat UInt64 := ⟨UInt64.ofNat⟩

/-- A version number `major.minor.patch`. -/
structure Version where
  major : UInt64
  minor : UInt64
  patch : UInt64
  deriving DecidableEq, Inhabited, Repr

namespace Version

/-- The components are compared from left to right. -/
instance : Ord Version := ⟨fun a b =>
  (compare a.major b.major).then ((compare a.minor b.minor).then (compare a.patch b.patch))⟩

instance : LE Version := ⟨fun a b => compare a b ≠ .gt⟩

instance : LT Version := ⟨fun a b => compare a b = .lt⟩

instance (a b : Version) : Decidable (a ≤ b) := inferInstanceAs (Decidable (compare a b ≠ .gt))

instance (a b : Version) : Decidable (a < b) := inferInstanceAs (Decidable (compare a b = .lt))

/-- The normal form: `major.minor`, and the patch when it is not zero. -/
def render (v : Version) : String :=
  let short := toString v.major.toNat ++ "." ++ toString v.minor.toNat
  if v.patch = 0 then short else short ++ "." ++ toString v.patch.toNat

instance : ToString Version := ⟨render⟩

/-- The value of a decimal digit. -/
def digitValue (c : Char) : Nat := c.toNat - '0'.toNat

/-- Whether a character is one of the ten ASCII digits. -/
def isDigit (c : Char) : Bool := '0' ≤ c && c ≤ '9'

/-- Whether a stretch is a non-empty group of digits. -/
def isNumber (digits : List Char) : Bool := !digits.isEmpty && digits.all isDigit

/-- The number that a group of digits denotes. -/
def numberValue (digits : List Char) : Nat :=
  digits.foldl (fun value c => 10 * value + digitValue c) 0

/-- The component that a stretch between dots denotes. -/
def component? (digits : List Char) : Option UInt64 :=
  if h : isNumber digits = true ∧ numberValue digits < UInt64.size then
    some (UInt64.ofNatLT (numberValue digits) h.2)
  else none

/-- Read a version: one to three groups of digits between dots, with blanks around them ignored
and missing components zero. -/
def parse? (text : String) : Option Version :=
  match (Text.fields '.' (Text.trimmed text.toList)).mapM component? with
  | some [major] => some ⟨major, 0, 0⟩
  | some [major, minor] => some ⟨major, minor, 0⟩
  | some [major, minor, patch] => some ⟨major, minor, patch⟩
  | _ => none

/-- Insert an item behind every item whose version is not above its own. -/
def place {α : Type} (version : α → Version) (item : α) : List α → List α
  | [] => [item]
  | other :: rest =>
    if version item < version other then item :: other :: rest
    else other :: place version item rest

/-- The items by ascending version; items of one version keep their order. -/
def sortOn {α : Type} (version : α → Version) (items : List α) : List α :=
  items.foldl (fun done item => place version item done) []

end Version

end PackagePlan
