/-
  Matching in one walk over the parts of a glob. A place of a text is its start, its end or a
  point between two characters, and each part leads from the places reached before it to those
  reached behind it. Main statement: the walk finds a match exactly when `accepts` does.
-/
import PackagePlan.Glob.Token

namespace PackagePlan.Glob

/-- The places behind a part that stands for one character, the start of the text apart. -/
def stepPlaces (token : Token) : List Char → List Bool → List Bool
  | c :: s, here :: places => (here && token.accepts c) :: stepPlaces token s places
  | _, _ => []

/-- The places behind a run of characters that are no separators. `before` says whether a run
leads to the first of them. -/
def runPlaces (before : Bool) : List Char → List Bool → List Bool
  | c :: s, here :: places => (here || before) :: runPlaces ((here || before) && c ≠ '/') s places
  | [], here :: _ => [here || before]
  | _, [] => []

/-- The places behind whole components: those reached before, those behind a later separator, and
the end. `begun` says whether a place in front was reached, and `fresh` whether a separator stands
in front of the first place. -/
def directoryPlaces (begun fresh : Bool) : List Char → List Bool → List Bool
  | c :: s, here :: places =>
    (here || begun && fresh) :: directoryPlaces (begun || here) (c = '/') s places
  | [], here :: _ => [here || begun]
  | _, [] => []

/-- The places that a part leads to. -/
def advance (token : Token) (s : List Char) (places : List Bool) : List Bool :=
  match token with
  | .anyRun => runPlaces false s places
  | .anyDirectories => directoryPlaces false false s places
  | .char _ | .anyChar | .within _ | .except _ => false :: stepPlaces token s places

/-- The places that parts lead to one after another. -/
def advanceAll (tokens : List Token) (s : List Char) (places : List Bool) : List Bool :=
  tokens.foldl (fun places token => advance token s places) places

/-- The places of a text of which only the start has been reached. -/
def startPlaces (s : List Char) : List Bool := true :: s.map fun _ => false

/-- Whether parts lead from the start of a text to its end. -/
def crosses (tokens : List Token) (s : List Char) : Bool :=
  (advanceAll tokens s (startPlaces s)).getLast? == some true

/-- Whether parts match what is left of a text at one of the places. -/
def acceptsAt (tokens : List Token) : List Char → List Bool → Bool
  | c :: s, here :: places => here && accepts tokens (c :: s) || acceptsAt tokens s places
  | [], here :: _ => here && accepts tokens []
  | _, [] => false

theorem acceptsAt_nil (tokens : List Token) (s : List Char) : acceptsAt tokens s [] = false := by
  cases s <;> rfl

theorem acceptsAt_cons (tokens : List Token) (s : List Char) (here : Bool) (places : List Bool) :
    acceptsAt tokens s (here :: places)
      = (here && accepts tokens s || acceptsAt tokens s (false :: places)) := by
  cases s <;> simp [acceptsAt]

theorem acceptsAt_startPlaces (tokens : List Token) (s : List Char) :
    acceptsAt tokens s (startPlaces s) = accepts tokens s := by
  have hnone : acceptsAt tokens s (false :: s.map fun _ => false) = false := by
    induction s with
    | nil => rfl
    | cons c s ih => simpa [acceptsAt] using ih
  rw [startPlaces, acceptsAt_cons, hnone]
  simp

theorem acceptsAt_stepPlaces {token : Token} {tokens : List Token}
    (hnil : accepts (token :: tokens) [] = false)
    (hcons : ∀ c s, accepts (token :: tokens) (c :: s) = (token.accepts c && accepts tokens s))
    (s : List Char) (places : List Bool) :
    acceptsAt tokens s (false :: stepPlaces token s places)
      = acceptsAt (token :: tokens) s places := by
  induction s generalizing places with
  | nil => cases places <;> simp [acceptsAt, hnil]
  | cons c s ih =>
    cases places with
    | nil => simp [stepPlaces, acceptsAt, acceptsAt_nil]
    | cons here places =>
      simp only [stepPlaces, acceptsAt, Bool.false_and, Bool.false_or, hcons]
      rw [acceptsAt_cons, ih, Bool.and_assoc]

theorem acceptsAt_runPlaces (tokens : List Token) (before : Bool) {s : List Char}
    {places : List Bool} (h : s.length < places.length) :
    acceptsAt tokens s (runPlaces before s places)
      = (before && (afterRun s).any (accepts tokens)
          || acceptsAt (.anyRun :: tokens) s places) := by
  induction s generalizing before places with
  | nil =>
    cases places with
    | nil => simp at h
    | cons here places =>
      cases before <;> cases here <;> simp [runPlaces, acceptsAt, accepts, afterRun]
  | cons c s ih =>
    cases places with
    | nil => simp at h
    | cons here places =>
      simp only [runPlaces, acceptsAt, ih _ (Nat.lt_of_succ_lt_succ h), accepts, afterRun]
      by_cases hc : c = '/' <;> cases before <;> cases here <;>
        simp [hc, Bool.or_comm, Bool.or_left_comm]

theorem acceptsAt_directoryPlaces (tokens : List Token) (begun fresh : Bool) {s : List Char}
    {places : List Bool} (h : s.length < places.length) :
    acceptsAt tokens s (directoryPlaces begun fresh s places)
      = (begun && (fresh && accepts tokens s || (afterSeparators s).any (accepts tokens)
            || accepts tokens [])
          || acceptsAt (.anyDirectories :: tokens) s places) := by
  induction s generalizing begun fresh places with
  | nil =>
    cases places with
    | nil => simp at h
    | cons here places =>
      cases begun <;> cases here <;>
        simp [directoryPlaces, acceptsAt, accepts, afterDirectories, afterSeparators]
  | cons c s ih =>
    cases places with
    | nil => simp at h
    | cons here places =>
      simp only [directoryPlaces, acceptsAt, ih _ _ (Nat.lt_of_succ_lt_succ h), accepts,
        afterDirectories, afterSeparators]
      by_cases hc : c = '/' <;> cases begun <;> cases here <;> cases fresh <;>
        simp [hc, Bool.or_comm, Bool.or_left_comm]

theorem acceptsAt_advance (token : Token) (tokens : List Token) {s : List Char}
    {places : List Bool} (h : s.length < places.length) :
    acceptsAt tokens s (advance token s places) = acceptsAt (token :: tokens) s places := by
  cases token with
  | anyRun => simp [advance, acceptsAt_runPlaces tokens false h]
  | anyDirectories => simp [advance, acceptsAt_directoryPlaces tokens false false h]
  | _ => exact acceptsAt_stepPlaces rfl (fun _ _ => rfl) s places

theorem length_stepPlaces (token : Token) {s : List Char} {places : List Bool}
    (h : s.length < places.length) : (stepPlaces token s places).length = s.length := by
  induction s generalizing places with
  | nil => rfl
  | cons c s ih =>
    cases places with
    | nil => simp at h
    | cons here places => simp [stepPlaces, ih (Nat.lt_of_succ_lt_succ h)]

theorem length_runPlaces (before : Bool) {s : List Char} {places : List Bool}
    (h : s.length < places.length) : (runPlaces before s places).length = s.length + 1 := by
  induction s generalizing before places with
  | nil =>
    cases places with
    | nil => simp at h
    | cons here places => rfl
  | cons c s ih =>
    cases places with
    | nil => simp at h
    | cons here places => simp [runPlaces, ih _ (Nat.lt_of_succ_lt_succ h)]

theorem length_directoryPlaces (begun fresh : Bool) {s : List Char} {places : List Bool}
    (h : s.length < places.length) :
    (directoryPlaces begun fresh s places).length = s.length + 1 := by
  induction s generalizing begun fresh places with
  | nil =>
    cases places with
    | nil => simp at h
    | cons here places => rfl
  | cons c s ih =>
    cases places with
    | nil => simp at h
    | cons here places => simp [directoryPlaces, ih _ _ (Nat.lt_of_succ_lt_succ h)]

theorem length_advance (token : Token) {s : List Char} {places : List Bool}
    (h : s.length < places.length) : (advance token s places).length = s.length + 1 := by
  cases token with
  | anyRun => exact length_runPlaces false h
  | anyDirectories => exact length_directoryPlaces false false h
  | _ => simp [advance, length_stepPlaces _ h]

theorem acceptsAt_of_length_eq {s : List Char} {places : List Bool}
    (h : places.length = s.length + 1) :
    acceptsAt [] s places = (places.getLast? == some true) := by
  induction s generalizing places with
  | nil =>
    obtain ⟨here, rfl⟩ := List.length_eq_one_iff.1 h
    cases here <;> rfl
  | cons c s ih =>
    cases places with
    | nil => simp at h
    | cons here places =>
      have hlast : (here :: places).getLast? = places.getLast? := by
        cases places with
        | nil => simp at h
        | cons next places => simp [List.getLast?_cons_cons]
      simp [acceptsAt, accepts, ih (Nat.succ.inj h), hlast]

theorem acceptsAt_advanceAll (tokens : List Token) {s : List Char} {places : List Bool}
    (h : places.length = s.length + 1) :
    ((advanceAll tokens s places).getLast? == some true) = acceptsAt tokens s places := by
  induction tokens generalizing places with
  | nil => exact (acceptsAt_of_length_eq h).symm
  | cons token tokens ih =>
    have hlt : s.length < places.length := by omega
    rw [← acceptsAt_advance token tokens hlt, ← ih (length_advance token hlt)]
    rfl

/-- The walk finds a match exactly when there is a way to share the text out. -/
theorem crosses_eq_accepts (tokens : List Token) (s : List Char) :
    crosses tokens s = accepts tokens s := by
  have hlength : (startPlaces s).length = s.length + 1 := by simp [startPlaces]
  rw [crosses, acceptsAt_advanceAll tokens hlength, acceptsAt_startPlaces]

end PackagePlan.Glob
