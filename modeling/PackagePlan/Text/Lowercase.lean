/-
  The lower case of a text by the full Unicode mapping. Two letters need more than the table of
  single code points: the dotted capital I becomes two characters, and a capital sigma becomes
  the final form at the end of a word.
-/
import PackagePlan.Text.CaseRuns
import PackagePlan.Text.Cased

namespace PackagePlan.Text

/-- The lower-case letter of a single character, by the table of runs. -/
def lowerLetter (c : Char) : Char :=
  match caseRuns.find? fun run =>
      run.1 ≤ c.toNat && c.toNat ≤ run.2.1 && (c.toNat - run.1) % run.2.2.1 == 0 with
  | some run => Char.ofNat (c.toNat + run.2.2.2).toNat
  | none => c

/-- Whether the nearest character that is not case-ignorable is a letter with case. -/
def touchesLetter (s : List Char) : Bool :=
  match s.dropWhile (inRanges caseIgnorableRanges) with
  | [] => false
  | c :: _ => inRanges casedRanges c

/-- The lower case of `rest`, where `before` holds the characters in front of it, nearest first. -/
def lowerFrom (before : List Char) : List Char → List Char
  | [] => []
  | c :: rest =>
    let lowered :=
      if c.toNat = 0x3A3 then
        if touchesLetter before && !touchesLetter rest then ['ς'] else ['σ']
      else if c.toNat = 0x130 then ['i', Char.ofNat 0x307]
      else [lowerLetter c]
    lowered ++ lowerFrom (c :: before) rest

/-- The text in lower case. -/
def lowercase (s : String) : String := String.ofList (lowerFrom [] s.toList)

end PackagePlan.Text
