/-
  Keys as TOML writes them: names in bare letters or as strings on one line, with dots between.
-/
import PackagePlan.Toml.Assembly
import PackagePlan.Toml.Text

namespace PackagePlan.Toml

/-- A character of a name that needs no quotes. -/
def isBare (c : Char) : Bool :=
  ('a' ≤ c && c ≤ 'z') || ('A' ≤ c && c ≤ 'Z') || ('0' ≤ c && c ≤ '9') || c = '_' || c = '-'

/-- One name of a key. -/
def keyName? : Reader String
  | [] => none
  | c :: rest =>
    if c = doubleQuote then (basicRest rest).map fun r => (String.ofList r.1, r.2)
    else if c = singleQuote then (literalRest rest).map fun r => (String.ofList r.1, r.2)
    else if isBare c then
      some (String.ofList (c :: rest.takeWhile isBare), rest.dropWhile isBare)
    else none

theorem length_keyName_lt {s rest : List Char} {name : String}
    (h : keyName? s = some (name, rest)) : rest.length < s.length := by
  cases s with
  | nil => simp [keyName?] at h
  | cons c s =>
    simp only [keyName?] at h
    split at h
    · obtain ⟨r, hr, heq⟩ := Option.map_eq_some_iff.1 h
      obtain ⟨-, rfl⟩ : _ ∧ _ := by simpa using heq
      exact Nat.lt_succ_of_lt (length_basicRest_lt hr)
    · split at h
      · obtain ⟨r, hr, heq⟩ := Option.map_eq_some_iff.1 h
        obtain ⟨-, rfl⟩ : _ ∧ _ := by simpa using heq
        exact Nat.lt_succ_of_lt (length_literalRest_lt hr)
      · split at h
        · obtain ⟨-, rfl⟩ : _ ∧ _ := by simpa using h
          exact Nat.lt_succ_of_le ((List.dropWhile_sublist _).length_le)
        · simp at h

/-- The names of a key, with spaces around each and around the dots. -/
def keyNames? (s : List Char) : Option (List String × List Char) :=
  match _h : keyName? (skipSpaces s) with
  | none => none
  | some (name, after) =>
    match _hd : skipSpaces after with
    | '.' :: rest => (keyNames? rest).map fun r => (name :: r.1, r.2)
    | rest => some ([name], rest)
termination_by s.length
decreasing_by
  have hname := length_keyName_lt _h
  have hspaces := length_skipSpaces_le s
  have hafter := length_skipSpaces_le after
  simp only [_hd, List.length_cons] at hafter
  omega

/-- How many arrays, tables or names of a key may be nested. -/
def nestingLimit : Nat := 79

/-- A key, as the names on the way and the last name. -/
def key? : Reader (List String × String) := fun s =>
  match keyNames? s with
  | none => none
  | some (names, rest) =>
    match names.getLast? with
    | none => none
    | some name =>
      if names.length ≤ nestingLimit then some ((names.dropLast, name), rest) else none

end PackagePlan.Toml
