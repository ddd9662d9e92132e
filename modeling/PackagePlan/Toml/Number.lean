/-
  Numbers, dates and times as TOML writes them. Each reader takes the characters of one literal
  and returns what follows, or nothing when the literal is not well formed.
-/
import PackagePlan.Toml.Value

namespace PackagePlan.Toml

/-- A reader takes something from the front of the input and returns the rest. -/
abbrev Reader (α : Type) := List Char → Option (α × List Char)

namespace Number

/-- Whether a character is a digit of a base up to sixteen. -/
def isDigitOf (base : Nat) (c : Char) : Bool :=
  let value :=
    if '0' ≤ c && c ≤ '9' then c.toNat - '0'.toNat
    else if 'a' ≤ c && c ≤ 'f' then c.toNat - 'a'.toNat + 10
    else if 'A' ≤ c && c ≤ 'F' then c.toNat - 'A'.toNat + 10
    else 16
  value < base

/-- The value of a digit of a base up to sixteen. -/
def digitValue (c : Char) : Nat :=
  if '0' ≤ c && c ≤ '9' then c.toNat - '0'.toNat
  else if 'a' ≤ c && c ≤ 'f' then c.toNat - 'a'.toNat + 10
  else c.toNat - 'A'.toNat + 10

/-- The number that digits of a base denote. -/
def valueOf (base : Nat) (digits : List Char) : Nat :=
  digits.foldl (fun value c => base * value + digitValue c) 0

/-- The digits that follow a first one; an underscore may stand between two digits. -/
def moreDigits (base : Nat) : Reader (List Char)
  | '_' :: c :: rest =>
    if isDigitOf base c then (moreDigits base rest).map fun r => (c :: r.1, r.2) else none
  | ['_'] => none
  | c :: rest =>
    if isDigitOf base c then (moreDigits base rest).map fun r => (c :: r.1, r.2)
    else some ([], c :: rest)
  | [] => some ([], [])

/-- One or more digits; an underscore may stand between two of them. -/
def digits (base : Nat) : Reader (List Char)
  | c :: rest =>
    if isDigitOf base c then (moreDigits base rest).map fun r => (c :: r.1, r.2) else none
  | [] => none

/-- An optional sign: whether it is a minus, and the rest. -/
def sign : List Char → Bool × List Char
  | '-' :: rest => (true, rest)
  | '+' :: rest => (false, rest)
  | rest => (false, rest)

/-- A whole number without leading zeros. -/
def whole : Reader (List Char)
  | '0' :: rest => some (['0'], rest)
  | s => digits 10 s

/-- The bound of the integers that fit: one more than the largest. -/
def integerBound : Nat := 1 <<< 63

/-- The integer of a magnitude and a sign, if it fits. -/
def integer? (negative : Bool) (magnitude : Nat) : Option Value :=
  if negative then
    if magnitude ≤ integerBound then some (.integer (-(magnitude : Int))) else none
  else if magnitude < integerBound then some (.integer magnitude) else none

/-- Whether a decimal number is too large for a double: it rounds to infinity. -/
def overflows (mantissa : Nat) (exponent : Int) : Bool :=
  let limit : Nat := 1 <<< 1024 - 1 <<< 970
  let scale := exponent + (Nat.toDigits 10 mantissa).length
  if mantissa = 0 || scale < 300 then false
  else if 310 < scale then true
  else if 0 ≤ exponent then limit ≤ mantissa * Nat.pow 10 exponent.toNat
  else limit * Nat.pow 10 (-exponent).toNat ≤ mantissa

/-- The exponent of a float, if one follows. -/
def exponent? (s : List Char) : Option (Option Int × List Char) :=
  match s with
  | c :: rest =>
    if c = 'e' || c = 'E' then do
      let (negative, rest) := sign rest
      let (ds, rest) ← digits 10 rest
      let size : Int := valueOf 10 ds
      return (some (if negative then -size else size), rest)
    else some (none, s)
  | [] => some (none, [])

/-- The float of its parts, unless it is a positive one that is too large. -/
def float? (negative : Bool) (whole fraction : List Char) (exponent : Int) : Option Value :=
  let digits := whole ++ fraction
  if !negative && overflows (valueOf 10 digits) (exponent - fraction.length) then none
  else some (.float (String.ofList digits ++ "e" ++ toString (exponent - fraction.length)))

/-- A decimal integer or a float. -/
def decimal : Reader Value := fun s => do
  let (negative, s) := sign s
  let (before, s) ← whole s
  match s with
  | '.' :: rest =>
    let (fraction, rest) ← digits 10 rest
    let (exponent, rest) ← exponent? rest
    let value ← float? negative before fraction (exponent.getD 0)
    return (value, rest)
  | _ =>
    let (exponent, rest) ← exponent? s
    match exponent with
    | some exponent =>
      let value ← float? negative before [] exponent
      return (value, rest)
    | none =>
      let value ← integer? negative (valueOf 10 before)
      return (value, rest)

/-- An integer of another base, after the mark of the base. -/
def based (base : Nat) : Reader Value := fun s => do
  let (ds, rest) ← digits base s
  let value ← integer? false (valueOf base ds)
  return (value, rest)

/-- A number: `0x`, `0o` and `0b` mark the other bases, and a sign may stand before the words for
infinity and for no number. -/
def number : Reader Value
  | '0' :: 'x' :: rest => based 16 rest
  | '0' :: 'o' :: rest => based 8 rest
  | '0' :: 'b' :: rest => based 2 rest
  | s =>
    match (sign s).2 with
    | 'i' :: 'n' :: 'f' :: rest => some (.float "inf", rest)
    | 'n' :: 'a' :: 'n' :: rest => some (.float "nan", rest)
    | _ => decimal s

end Number

namespace Moment

/-- A group of exactly `count` digits whose value lies between two bounds. -/
def group (count low high : Nat) : Reader Nat := fun s =>
  let ds := s.take count
  let value := Number.valueOf 10 ds
  if ds.length = count && ds.all (Number.isDigitOf 10) && low ≤ value && value ≤ high then
    some (value, s.drop count)
  else none

/-- A given character. -/
def mark (c : Char) : List Char → Option (List Char)
  | d :: rest => if d = c then some rest else none
  | [] => none

/-- The number of days in a month. -/
def daysIn (year month : Nat) : Nat :=
  if month = 2 then
    if year % 4 = 0 && (year % 100 != 0 || year % 400 = 0) then 29 else 28
  else if month = 4 || month = 6 || month = 9 || month = 11 then 30
  else 31

/-- Whether a date starts here: four digits and a dash. -/
def startsDate (s : List Char) : Bool :=
  ((group 4 0 9999 s).bind fun r => mark '-' r.2).isSome

/-- Whether a time starts here: an hour and a colon. -/
def startsTime (s : List Char) : Bool :=
  ((group 2 0 23 s).bind fun r => mark ':' r.2).isSome

/-- A date, checked against the calendar. -/
def date (s : List Char) : Option (List Char) := do
  let (year, s) ← group 4 0 9999 s
  let s ← mark '-' s
  let (month, s) ← group 2 1 12 s
  let s ← mark '-' s
  let (_, s) ← group 2 1 (daysIn year month) s
  return s

/-- What follows a fraction of a second, if there is one. -/
def skipFraction (s : List Char) : List Char :=
  match s with
  | '.' :: c :: rest =>
    if Number.isDigitOf 10 c then rest.dropWhile (Number.isDigitOf 10) else s
  | _ => s

/-- A time of day. -/
def time (s : List Char) : Option (List Char) := do
  let (_, s) ← group 2 0 23 s
  let s ← mark ':' s
  let (_, s) ← group 2 0 59 s
  let s ← mark ':' s
  let (_, s) ← group 2 0 60 s
  return skipFraction s

/-- What follows the distance from universal time, if there is one. -/
def skipOffset (s : List Char) : Option (List Char) :=
  match s with
  | 'Z' :: rest | 'z' :: rest => some rest
  | '+' :: rest | '-' :: rest => do
    let (_, s) ← group 2 0 23 rest
    let s ← mark ':' s
    let (_, s) ← group 2 0 59 s
    return s
  | _ => some s

/-- What follows a date, with the time and offset that belong to it. -/
def afterDate (s : List Char) : Option (List Char) := do
  let s ← date s
  match s with
  | c :: rest =>
    if (c = 'T' || c = 't' || c = ' ') && startsTime rest then do
      let rest ← time rest
      skipOffset rest
    else return s
  | [] => return []

/-- The characters of the input in front of the rest. -/
def taken (s rest : List Char) : String := String.ofList (s.take (s.length - rest.length))

/-- A date, a time, or a number. -/
def orNumber : Reader Value := fun s =>
  if startsDate s then (afterDate s).map fun rest => (.datetime (taken s rest), rest)
  else if startsTime s then (time s).map fun rest => (.datetime (taken s rest), rest)
  else Number.number s

end Moment

end PackagePlan.Toml
