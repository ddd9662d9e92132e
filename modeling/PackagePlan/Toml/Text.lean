/-
  Strings as TOML writes them: between double quotes with escapes, between single quotes without,
  and both over several lines between triple quotes. Each reader starts behind the opening quote
  and returns the characters denoted and what follows the closing quote. Main statements: each
  reader leaves less than it was given, so reading strings ends.
-/
import PackagePlan.Toml.Blank
import PackagePlan.Toml.Number

namespace PackagePlan.Toml

/-- The mark around a string with escapes. -/
def doubleQuote : Char := '\x22'

/-- The mark around a string without escapes. -/
def singleQuote : Char := '\x27'

/-- The character of a code point in exactly `count` hexadecimal digits. -/
def codePoint? (count : Nat) : Reader Char := fun s =>
  let digits := s.take count
  let value := Number.valueOf 16 digits
  if digits.length = count && digits.all (Number.isDigitOf 16) && decide value.isValidChar then
    some (Char.ofNat value, s.drop count)
  else none

/-- What an escape denotes, read behind the backslash. -/
def escape? : Reader Char
  | [] => none
  | c :: rest =>
    if c = 'b' then some ('\x08', rest)
    else if c = 't' then some ('\t', rest)
    else if c = 'n' then some ('\n', rest)
    else if c = 'f' then some ('\x0c', rest)
    else if c = 'r' then some ('\r', rest)
    else if c = doubleQuote || c = '\\' then some (c, rest)
    else if c = 'u' then codePoint? 4 rest
    else if c = 'U' then codePoint? 8 rest
    else none

theorem length_codePoint_le {count : Nat} {s rest : List Char} {c : Char}
    (h : codePoint? count s = some (c, rest)) : rest.length ≤ s.length := by
  simp only [codePoint?] at h
  split at h
  · obtain ⟨-, rfl⟩ : _ ∧ _ := by simpa using h
    simp
  · simp at h

theorem length_escape_lt {s rest : List Char} {c : Char} (h : escape? s = some (c, rest)) :
    rest.length < s.length := by
  cases s with
  | nil => simp [escape?] at h
  | cons first more =>
    simp only [escape?] at h
    rw [List.length_cons, Nat.lt_succ_iff]
    repeat' split at h
    all_goals first
      | exact length_codePoint_le h
      | simp_all

/-- The rest of a string between double quotes. -/
def basicRest (s : List Char) : Option (List Char × List Char) :=
  match s with
  | [] => none
  | c :: rest =>
    if c = doubleQuote then some ([], rest)
    else if c = '\\' then
      match _h : escape? rest with
      | none => none
      | some (d, after) => (basicRest after).map fun r => (d :: r.1, r.2)
    else if isPlain c then (basicRest rest).map fun r => (c :: r.1, r.2)
    else none
termination_by s.length
decreasing_by
  · have := length_escape_lt _h
    simp only [List.length_cons]
    omega
  · simp

/-- The rest of a string between single quotes. -/
def literalRest : Reader (List Char)
  | [] => none
  | c :: rest =>
    if c = singleQuote then some ([], rest)
    else if isPlain c then (literalRest rest).map fun r => (c :: r.1, r.2)
    else none

/-- The text behind a line end that a backslash hides, with the spaces and line ends after it. -/
def folded? (s : List Char) : Option (List Char) := (lineEnd? (skipSpaces s)).map skipLines

theorem length_folded_lt {s rest : List Char} (h : folded? s = some rest) :
    rest.length < s.length := by
  obtain ⟨after, hafter, rfl⟩ := Option.map_eq_some_iff.1 h
  exact Nat.lt_of_le_of_lt (length_skipLines_le after)
    (Nat.lt_of_lt_of_le (length_lineEnd_lt hafter) (length_skipSpaces_le s))

/-- The number of quotes at the front. -/
def quoteRun (quote : Char) (s : List Char) : Nat := (s.takeWhile (· == quote)).length

/-- The rest of a string between triple quotes. One or two quotes in front of the closing ones
belong to the string. -/
def blockRest (quote : Char) (s : List Char) : Option (List Char × List Char) :=
  match s with
  | [] => none
  | '\r' :: '\n' :: rest => (blockRest quote rest).map fun r => ('\n' :: r.1, r.2)
  | c :: rest =>
    if c = quote then
      if 3 ≤ quoteRun quote (c :: rest) then
        let extra := min 2 (quoteRun quote (c :: rest) - 3)
        some (List.replicate extra quote, (c :: rest).drop (extra + 3))
      else (blockRest quote rest).map fun r => (c :: r.1, r.2)
    else if c = '\\' && quote = doubleQuote then
      match _hf : folded? rest with
      | some after => blockRest quote after
      | none =>
        match _he : escape? rest with
        | none => none
        | some (d, after) => (blockRest quote after).map fun r => (d :: r.1, r.2)
    else if c = '\n' || isPlain c then (blockRest quote rest).map fun r => (c :: r.1, r.2)
    else none
termination_by s.length
decreasing_by
  · simp only [List.length_cons]
    omega
  · simp
  · have := length_folded_lt _hf
    simp only [List.length_cons]
    omega
  · have := length_escape_lt _he
    simp only [List.length_cons]
    omega
  · simp

/-- The text behind a line end, or all of it when none comes first. -/
def skipLineEnd (s : List Char) : List Char := (lineEnd? s).getD s

/-- A string in any of its forms. -/
def text? (s : List Char) : Option (String × List Char) :=
  let read :=
    match s with
    | '\x22' :: '\x22' :: '\x22' :: rest => blockRest doubleQuote (skipLineEnd rest)
    | '\x22' :: rest => basicRest rest
    | '\x27' :: '\x27' :: '\x27' :: rest => blockRest singleQuote (skipLineEnd rest)
    | '\x27' :: rest => literalRest rest
    | _ => none
  read.map fun r => (String.ofList r.1, r.2)

theorem length_basicRest_lt {s text rest : List Char} (h : basicRest s = some (text, rest)) :
    rest.length < s.length := by
  fun_induction basicRest s generalizing text with
  | case1 => simp at h
  | case2 => simp_all
  | case3 => simp at h
  | case4 after d more hesc _ ih =>
    obtain ⟨r, hr, heq⟩ := Option.map_eq_some_iff.1 h
    obtain ⟨-, rfl⟩ : _ ∧ _ := by simpa using heq
    have := ih hr
    have := length_escape_lt hesc
    simp only [List.length_cons]
    omega
  | case5 c after _ _ _ ih =>
    obtain ⟨r, hr, heq⟩ := Option.map_eq_some_iff.1 h
    obtain ⟨-, rfl⟩ : _ ∧ _ := by simpa using heq
    exact Nat.lt_succ_of_lt (ih hr)
  | case6 => simp at h

theorem length_literalRest_lt {s text rest : List Char} (h : literalRest s = some (text, rest)) :
    rest.length < s.length := by
  induction s generalizing text with
  | nil => simp [literalRest] at h
  | cons c s ih =>
    simp only [literalRest] at h
    split at h
    · simp_all
    · split at h
      · obtain ⟨r, hr, heq⟩ := Option.map_eq_some_iff.1 h
        obtain ⟨-, rfl⟩ : _ ∧ _ := by simpa using heq
        exact Nat.lt_succ_of_lt (ih hr)
      · simp at h

end PackagePlan.Toml
