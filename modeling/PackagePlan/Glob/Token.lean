/-
  Parts of a glob, a pattern for paths: `*`, `?` and classes in brackets stand for characters of
  one path component and `**` for any number of whole components. What a pattern means is
  `accepts`, which tries every way to share a text out among the parts. No part for characters
  stands for a separator.
-/
namespace PackagePlan.Glob

/-- A part of a pattern. -/
inductive Token where
  | char (c : Char)
  /-- Any character but a separator. -/
  | anyChar
  /-- Any number of characters but separators. -/
  | anyRun
  /-- Any number of whole components. -/
  | anyDirectories
  /-- A character in one of the ranges, but not a separator. -/
  | within (ranges : List (Char × Char))
  /-- A character in none of the ranges, and not a separator. -/
  | except (ranges : List (Char × Char))
  deriving DecidableEq, Inhabited, Repr

/-- Whether a character lies in one of the ranges, ends included. -/
def inRanges (ranges : List (Char × Char)) (c : Char) : Bool :=
  ranges.any fun range => range.1 ≤ c && c ≤ range.2

/-- Whether a token that stands for one character stands for this one. -/
def Token.accepts (token : Token) (c : Char) : Bool :=
  match token with
  | char expected => c = expected
  | anyChar => c ≠ '/'
  | within ranges => c ≠ '/' && inRanges ranges c
  | except ranges => c ≠ '/' && !inRanges ranges c
  | anyRun | anyDirectories => false

/-- What is left of a text after a run of characters that are no separators, for every length of
the run. -/
def afterRun : List Char → List (List Char)
  | [] => [[]]
  | c :: rest => (c :: rest) :: if c = '/' then [] else afterRun rest

/-- What is left of a text after each of its separators. -/
def afterSeparators : List Char → List (List Char)
  | [] => []
  | c :: rest => if c = '/' then rest :: afterSeparators rest else afterSeparators rest

/-- What is left of a text after whole components: all of it, what follows a separator, or
nothing. -/
def afterDirectories (s : List Char) : List (List Char) := s :: afterSeparators s ++ [[]]

/-- Whether tokens match a whole text. -/
def accepts : List Token → List Char → Bool
  | [], s => s.isEmpty
  | .anyRun :: rest, s => (afterRun s).any (accepts rest)
  | .anyDirectories :: rest, s => (afterDirectories s).any (accepts rest)
  | token :: rest, s =>
    match s with
    | [] => false
    | c :: s => token.accepts c && accepts rest s

end PackagePlan.Glob
