/-
  What stands between the words of a TOML text: spaces, line ends and comments. Main statements:
  skipping never lengthens the text, and a line end takes at least one character.
-/
namespace PackagePlan.Toml

/-- A character that strings and comments may hold as it is: no control character but the tab. -/
def isPlain (c : Char) : Bool := c = '\t' || (' ' ≤ c && c ≤ '~') || 0x80 ≤ c.toNat

/-- A character that separates words on a line. -/
def isSpace (c : Char) : Bool := c = ' ' || c = '\t'

/-- Everything from the first character that is no space. -/
def skipSpaces (s : List Char) : List Char := s.dropWhile isSpace

/-- The text after a line end, if one comes first. -/
def lineEnd? : List Char → Option (List Char)
  | '\n' :: rest => some rest
  | '\r' :: '\n' :: rest => some rest
  | _ => none

/-- Everything after a comment, or all of it when no comment comes first. -/
def skipComment : List Char → List Char
  | '#' :: rest => rest.dropWhile isPlain
  | rest => rest

/-- The text after the end of a statement: nothing but spaces and a comment may come before the
end of the line or of the text. -/
def statementEnd? (s : List Char) : Option (List Char) :=
  match skipComment (skipSpaces s) with
  | [] => some []
  | rest => lineEnd? rest

/-- Everything from the first character that is no space, line end or part of a comment. `comment`
tells whether a comment is open. -/
def skipGap (comment : Bool) : List Char → List Char
  | [] => []
  | '\r' :: '\n' :: rest => skipGap false rest
  | c :: rest =>
    if c = '\n' then skipGap false rest
    else if comment then if isPlain c then skipGap true rest else c :: rest
    else if isSpace c then skipGap false rest
    else if c = '#' then skipGap true rest
    else c :: rest

/-- Everything from the first character that is no space or line end. -/
def skipLines : List Char → List Char
  | [] => []
  | '\r' :: '\n' :: rest => skipLines rest
  | c :: rest => if c = '\n' || isSpace c then skipLines rest else c :: rest

theorem length_skipSpaces_le (s : List Char) : (skipSpaces s).length ≤ s.length :=
  (List.dropWhile_sublist _).length_le

theorem length_lineEnd_lt {s rest : List Char} (h : lineEnd? s = some rest) :
    rest.length < s.length := by
  unfold lineEnd? at h
  split at h
  · cases h
    simp
  · cases h
    simp only [List.length_cons]
    omega
  · cases h

theorem length_skipLines_le (s : List Char) : (skipLines s).length ≤ s.length := by
  fun_induction skipLines s <;> simp_all <;> omega

end PackagePlan.Toml
