/-
  Blank characters (the Unicode property `White_Space`) and the removal of blanks around a text.
  Main statement: what is removed on either side is blank.
-/
import PackagePlan.Text.Ranges

namespace PackagePlan.Text

/-- The code points with the property `White_Space`. -/
def blankRanges : List (Nat × Nat) := [
    (0x09, 0x0D), (0x20, 0x20), (0x85, 0x85), (0xA0, 0xA0), (0x1680, 0x1680), (0x2000, 0x200A),
    (0x2028, 0x2029), (0x202F, 0x202F), (0x205F, 0x205F), (0x3000, 0x3000)]

/-- A character that takes no ink: the blank, tabs, line ends and the wider spaces. -/
def isBlank (c : Char) : Bool := inRanges blankRanges c

/-- Everything from the first character that is not blank. -/
def trimLeft (s : List Char) : List Char := s.dropWhile isBlank

/-- Everything up to the last character that is not blank. -/
def trimRight (s : List Char) : List Char := (s.reverse.dropWhile isBlank).reverse

/-- The characters with the blanks around them removed. -/
def trimmed (s : List Char) : List Char := trimRight (trimLeft s)

/-- The text with the blanks around it removed. -/
def trim (s : String) : String := String.ofList (trimmed s.toList)

theorem trimLeft_of_not_isBlank {c : Char} {s : List Char} (h : isBlank c = false) :
    trimLeft (c :: s) = c :: s := by
  simp [trimLeft, h]

theorem exists_eq_append_trimLeft (s : List Char) :
    ∃ blanks, s = blanks ++ trimLeft s ∧ blanks.all isBlank = true :=
  ⟨s.takeWhile isBlank, by simp [trimLeft], by
    induction s with
    | nil => rfl
    | cons c s ih => by_cases h : isBlank c <;> simp_all⟩

end PackagePlan.Text
