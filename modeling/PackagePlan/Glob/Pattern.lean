/-
  Reading a glob from its text.
-/
import PackagePlan.Error
import PackagePlan.Glob.Places
import PackagePlan.Text.Fields

namespace PackagePlan

namespace Glob

/-- The ranges of a class; a dash between two characters makes them the ends of a range. -/
def ranges : List Char → List (Char × Char)
  | low :: '-' :: high :: rest => (low, high) :: ranges rest
  | c :: rest => (c, c) :: ranges rest
  | [] => []

/-- The characters of a class and the text behind its closing bracket, read behind the opening
one. The first character belongs to the class even when it is a bracket. -/
def class? : List Char → Option (List Char × List Char)
  | [] => none
  | first :: rest =>
    (Text.splitFirst? (· == ']') rest).map fun halves => (first :: halves.1, halves.2)

/-- The token of a class and the text behind it; a `!` in front of the class negates it. -/
def classToken? : List Char → Option (Token × List Char)
  | '!' :: rest => (class? rest).map fun halves => (.except (ranges halves.1), halves.2)
  | rest => (class? rest).map fun halves => (.within (ranges halves.1), halves.2)

theorem length_splitFirst_lt {p : Char → Bool} {s : List Char} {halves : List Char × List Char}
    (h : Text.splitFirst? p s = some halves) : halves.2.length < s.length := by
  induction s generalizing halves with
  | nil => simp [Text.splitFirst?] at h
  | cons c s ih =>
    simp only [Text.splitFirst?] at h
    split at h
    · simp_all only [Option.some.injEq]
      subst h
      simp
    · obtain ⟨inner, hinner, rfl⟩ := Option.map_eq_some_iff.1 h
      have hlt : inner.2.length < s.length := ih hinner
      exact Nat.lt_succ_of_lt hlt

theorem length_class_lt {s : List Char} {halves : List Char × List Char}
    (h : class? s = some halves) : halves.2.length < s.length := by
  cases s with
  | nil => simp [class?] at h
  | cons c s =>
    obtain ⟨inner, hinner, rfl⟩ := Option.map_eq_some_iff.1 h
    have hlt : inner.2.length < s.length := length_splitFirst_lt hinner
    exact Nat.lt_succ_of_lt hlt

theorem length_classToken_lt {s rest : List Char} {token : Token}
    (h : classToken? s = some (token, rest)) : rest.length < s.length := by
  unfold classToken? at h
  split at h
  · obtain ⟨halves, hclass, heq⟩ := Option.map_eq_some_iff.1 h
    obtain ⟨-, rfl⟩ : _ ∧ _ := by simpa using heq
    have hlt : halves.2.length < _ := length_class_lt hclass
    exact Nat.lt_succ_of_lt hlt
  · obtain ⟨halves, hclass, heq⟩ := Option.map_eq_some_iff.1 h
    obtain ⟨-, rfl⟩ : _ ∧ _ := by simpa using heq
    exact length_class_lt hclass

/-- The tokens of a pattern, from a position on. `before` is the character in front of it. -/
def tokensFrom (position : Nat) (before : Option Char) (s : List Char) :
    Except PatternFault (List Token) :=
  match s with
  | [] => .ok []
  | '*' :: '*' :: '*' :: _ => .error (.wildcard (position + 2) .run)
  | '*' :: '*' :: rest =>
    if before ≠ none && before ≠ some '/' then .error (.wildcard (position - 1) .recursive)
    else match rest with
      | [] => .ok [.anyDirectories]
      | '/' :: rest =>
        (tokensFrom (position + 3) (some '/') rest).map fun tokens => .anyDirectories :: tokens
      | _ => .error (.wildcard (position + 2) .recursive)
  | '*' :: rest => (tokensFrom (position + 1) (some '*') rest).map fun tokens => .anyRun :: tokens
  | '?' :: rest => (tokensFrom (position + 1) (some '?') rest).map fun tokens => .anyChar :: tokens
  | '[' :: rest =>
    match _h : classToken? rest with
    | none => .error (.wildcard position .range)
    | some (token, after) =>
      (tokensFrom (position + 1 + (rest.length - after.length)) (some ']') after).map fun tokens =>
        token :: tokens
  | c :: rest => (tokensFrom (position + 1) (some c) rest).map fun tokens => .char c :: tokens
termination_by s.length
decreasing_by
  · simp only [List.length_cons]
    omega
  · simp
  · simp
  · have := length_classToken_lt _h
    simp only [List.length_cons]
    omega
  · simp

end Glob

/-- A pattern for paths. -/
structure Glob where
  tokens : List Glob.Token
  deriving DecidableEq, Inhabited, Repr

namespace Glob

/-- Read a pattern. -/
def parse (text : String) : Except PatternFault Glob :=
  (tokensFrom 0 none text.toList).map Glob.mk

/-- Whether the pattern matches the whole of a text. -/
def acceptsText (glob : Glob) (text : String) : Bool := crosses glob.tokens text.toList

end Glob

end PackagePlan
