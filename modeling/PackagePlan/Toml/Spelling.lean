/-
  How strings and keys are spelt in a written TOML document. A string takes the first form that
  holds it without escapes: between double quotes, between single quotes, and then between triple
  quotes of either kind. A text that no form holds is escaped.
-/
import PackagePlan.Text.Fields
import PackagePlan.Toml.Key

namespace PackagePlan.Toml

/-- A character that no string may hold as it is. -/
def isControl (c : Char) : Bool := !isPlain c && c != '\n'

/-- Whether three quotes follow one another somewhere. -/
def hasTriple (quote : Char) : List Char → Bool
  | a :: b :: c :: rest =>
    (a = quote && b = quote && c = quote) || hasTriple quote (b :: c :: rest)
  | _ => false

/-- A hexadecimal digit in upper case. -/
def upperHexDigit (n : Nat) : Char := (Nat.digitChar n).toUpper

/-- How a character other than the quote is written between double quotes. -/
def escapedChar (c : Char) : List Char :=
  if c = '\\' then ['\\', '\\']
  else if c = '\n' then ['\\', 'n']
  else if c = '\t' then ['\\', 't']
  else if c = '\r' then ['\\', 'r']
  else if c = '\x08' then ['\\', 'b']
  else if c = '\x0c' then ['\\', 'f']
  else if isPlain c then [c]
  else ['\\', 'u', '0', '0', upperHexDigit (c.toNat / 16), upperHexDigit (c.toNat % 16)]

/-- The characters between double quotes, or between triple ones when `block` is set. `room` is
how many quotes may still stand as they are before one has to be escaped. -/
def escapedFrom (block : Bool) (room : Nat) : List Char → List Char
  | [] => []
  | c :: rest =>
    let full := if block then 2 else 0
    if c = doubleQuote then
      match room with
      | 0 => '\\' :: c :: escapedFrom block full rest
      | room + 1 => c :: escapedFrom block room rest
    else if c = '\n' && block then c :: escapedFrom block full rest
    else escapedChar c ++ escapedFrom block full rest

/-- A text between double quotes. -/
def basicSpelling (s : List Char) : List Char :=
  doubleQuote :: escapedFrom false 0 s ++ [doubleQuote]

/-- A text between single quotes. -/
def literalSpelling (s : List Char) : List Char := singleQuote :: s ++ [singleQuote]

/-- A text between triple quotes; the text starts on a line of its own when it has several. -/
def blockSpelling (quote : Char) (s : List Char) : List Char :=
  let marks := List.replicate 3 quote
  let opening := if s.contains '\n' then marks ++ ['\n'] else marks
  opening ++ (if quote = doubleQuote then escapedFrom true 2 s else s) ++ marks

/-- Whether a text has neither line ends nor characters that need escapes. -/
def isOneLine (s : List Char) : Bool := s.all isPlain

/-- Whether a text has no control characters but tabs and line ends. -/
def isPrintable (s : List Char) : Bool := !s.any isControl

/-- The spelling of a string. -/
def stringSpelling (s : List Char) : List Char :=
  if isOneLine s && !s.contains '\\' && !s.contains doubleQuote then basicSpelling s
  else if isOneLine s && !s.contains singleQuote then literalSpelling s
  else if isPrintable s && !s.contains '\\' && !hasTriple doubleQuote s then
    blockSpelling doubleQuote s
  else if isPrintable s && !hasTriple singleQuote s then blockSpelling singleQuote s
  else if s.contains '\n' then blockSpelling doubleQuote s
  else basicSpelling s

/-- The spelling of one name of a key. -/
def keySpelling (s : List Char) : List Char :=
  if !s.isEmpty && s.all isBare then s
  else if isOneLine s && !s.contains '\\' && !s.contains doubleQuote then basicSpelling s
  else if isOneLine s && !s.contains singleQuote then literalSpelling s
  else basicSpelling s

end PackagePlan.Toml
