/-
  How the spelling of a string or of a name is read back. Every text has a spelling and every
  spelling denotes its text (`text?_stringSpelling`, `keyName?_keySpelling`), whatever stands
  behind it: a string ends at its marks as long as no further mark follows, a bare name at the
  first character that is not bare.

  * An escape stands for its character (`escapedChar_cases`), so a text between double quotes is
    read back whole (`basicRest_escapedFrom`).
  * Between triple quotes a quote is read as it is only if no three quotes start there
    (`blockRest_quote`). Escaping never leaves more than two quotes in a row, and those at the very
    end run into the closing marks, which the reader counts from the end (`blockRest_closing`).
-/
import PackagePlan.Toml.Spelling

namespace PackagePlan.Toml

theorem head?_cons_ne {c d : Char} (h : c ≠ d) (s : List Char) : (c :: s).head? ≠ some d :=
  fun heq => h (Option.some.inj heq)

theorem lineEnd?_cons {c : Char} (hline : c ≠ '\n') (hreturn : c ≠ '\r') (s : List Char) :
    lineEnd? (c :: s) = none := by
  unfold lineEnd?
  split
  · next heq => exact absurd (List.cons.inj heq).1 hline
  · next heq => exact absurd (List.cons.inj heq).1 hreturn
  · rfl

/-! ## Escapes -/

/-- The last two hexadecimal digits denote a code point below 128. -/
theorem valueOf_upperHexDigit : ∀ n < 128,
    Number.valueOf 16 ['0', '0', upperHexDigit (n / 16), upperHexDigit (n % 16)] = n ∧
      ['0', '0', upperHexDigit (n / 16), upperHexDigit (n % 16)].all (Number.isDigitOf 16) =
        true := by
  decide +kernel

theorem toNat_lt_of_not_isPlain {c : Char} (h : isPlain c = false) : c.toNat < 128 := by
  unfold isPlain at h
  simp only [Bool.or_eq_false_iff, decide_eq_false_iff_not] at h
  omega

theorem codePoint?_control {c : Char} (h : c.toNat < 128) (rest : List Char) :
    codePoint? 4 ('0' :: '0' :: upperHexDigit (c.toNat / 16) :: upperHexDigit (c.toNat % 16) ::
      rest) = some (c, rest) := by
  obtain ⟨hvalue, hdigits⟩ := valueOf_upperHexDigit c.toNat h
  have hvalid : c.toNat.isValidChar := c.valid
  have htake : ∀ a b : Char, ('0' :: '0' :: a :: b :: rest).take 4 = ['0', '0', a, b] :=
    fun _ _ => rfl
  unfold codePoint?
  rw [if_pos]
  · simp only [htake, hvalue, Char.ofNat_toNat]
    rfl
  · simp only [htake, hvalue, hdigits, decide_eq_true hvalid]
    rfl

/-- A character other than the quote is written as it is, or as a backslash and an escape that
denotes it. -/
theorem escapedChar_cases (c : Char) :
    (escapedChar c = [c] ∧ isPlain c = true ∧ c ≠ '\\') ∨
      ∃ mark more, escapedChar c = '\\' :: mark :: more ∧
        mark ∉ [' ', '\t', '\n', '\r'] ∧
          ∀ rest, escape? (mark :: more ++ rest) = some (c, rest) := by
  unfold escapedChar
  split
  · next h => exact .inr ⟨'\\', [], rfl, by decide, fun _ => by rw [h]; rfl⟩
  split
  · next h => exact .inr ⟨'n', [], rfl, by decide, fun _ => by rw [h]; rfl⟩
  split
  · next h => exact .inr ⟨'t', [], rfl, by decide, fun _ => by rw [h]; rfl⟩
  split
  · next h => exact .inr ⟨'r', [], rfl, by decide, fun _ => by rw [h]; rfl⟩
  split
  · next h => exact .inr ⟨'b', [], rfl, by decide, fun _ => by rw [h]; rfl⟩
  split
  · next h => exact .inr ⟨'f', [], rfl, by decide, fun _ => by rw [h]; rfl⟩
  split
  · next hbackslash _ _ _ _ _ h => exact .inl ⟨rfl, h, hbackslash⟩
  · next h =>
    refine .inr ⟨'u', _, rfl, by decide, fun rest => ?_⟩
    exact codePoint?_control (toNat_lt_of_not_isPlain (Bool.eq_false_iff.2 h)) rest

/-! ## One line -/

theorem basicRest_plain {c : Char} (hquote : c ≠ doubleQuote) (hbackslash : c ≠ '\\')
    (hplain : isPlain c = true) (s : List Char) :
    basicRest (c :: s) = (basicRest s).map fun r => (c :: r.1, r.2) := by
  rw [basicRest, if_neg hquote, if_neg hbackslash, if_pos hplain]

theorem basicRest_escape {c : Char} {s rest : List Char} (h : escape? s = some (c, rest)) :
    basicRest ('\\' :: s) = (basicRest rest).map fun r => (c :: r.1, r.2) := by
  rw [basicRest, if_neg (by decide), if_pos rfl]
  split
  · next hnone =>
    rw [h] at hnone
    cases hnone
  · next hsome =>
    rw [h] at hsome
    cases hsome
    rfl

theorem basicRest_escapedChar {c : Char} (hquote : c ≠ doubleQuote) (rest : List Char) :
    basicRest (escapedChar c ++ rest) = (basicRest rest).map fun r => (c :: r.1, r.2) := by
  rcases escapedChar_cases c with ⟨heq, hplain, hbackslash⟩ | ⟨mark, more, heq, -, hescape⟩
  · rw [heq]
    exact basicRest_plain hquote hbackslash hplain rest
  · rw [heq]
    exact basicRest_escape (hescape rest)

/-- A text between double quotes is read back, whatever it holds. -/
theorem basicRest_escapedFrom (s rest : List Char) :
    basicRest (escapedFrom false 0 s ++ doubleQuote :: rest) = some (s, rest) := by
  induction s with
  | nil =>
    show basicRest (doubleQuote :: rest) = _
    rw [basicRest, if_pos rfl]
  | cons c s ih =>
    by_cases hquote : c = doubleQuote
    · subst hquote
      show basicRest ('\\' :: doubleQuote :: (escapedFrom false 0 s ++ doubleQuote :: rest)) = _
      rw [basicRest_escape rfl, ih]
      rfl
    · have hstep : escapedFrom false 0 (c :: s) = escapedChar c ++ escapedFrom false 0 s := by
        simp [escapedFrom, hquote]
      rw [hstep, List.append_assoc, basicRest_escapedChar hquote, ih]
      rfl

/-- A text between single quotes is read back if it is on one line and holds no such quote. -/
theorem literalRest_append {s : List Char} (hline : isOneLine s = true) (hquote : singleQuote ∉ s)
    (rest : List Char) : literalRest (s ++ singleQuote :: rest) = some (s, rest) := by
  induction s with
  | nil =>
    show literalRest (singleQuote :: rest) = _
    rw [literalRest, if_pos rfl]
  | cons c s ih =>
    unfold isOneLine at hline ih
    rw [List.all_cons, Bool.and_eq_true] at hline
    rw [List.mem_cons, not_or] at hquote
    rw [List.cons_append, literalRest, if_neg (Ne.symm hquote.1), if_pos hline.1,
      ih hline.2 hquote.2]
    rfl

/-! ## Between triple quotes -/

theorem quoteRun_replicate {quote : Char} (n : Nat) {rest : List Char}
    (h : rest.head? ≠ some quote) : quoteRun quote (List.replicate n quote ++ rest) = n := by
  unfold quoteRun
  rw [List.takeWhile_append_of_pos (by simp)]
  cases rest with
  | nil => simp
  | cons c rest =>
    have hne : c ≠ quote := fun heq => h (congrArg some heq)
    simp [hne]

theorem quoteRun_of_head? {quote : Char} {s : List Char} (h : s.head? ≠ some quote) :
    quoteRun quote s = 0 :=
  quoteRun_replicate 0 h

theorem quoteRun_cons (quote : Char) (s : List Char) :
    quoteRun quote (quote :: s) = quoteRun quote s + 1 := by
  simp [quoteRun]

section

variable {quote : Char} (hquote : quote ≠ '\r')

include hquote

/-- Up to two quotes in front of the closing marks belong to the text. -/
theorem blockRest_closing {extra : Nat} (h : extra ≤ 2) {rest : List Char}
    (hrest : rest.head? ≠ some quote) :
    blockRest quote (List.replicate extra quote ++ (List.replicate 3 quote ++ rest)) =
      some (List.replicate extra quote, rest) := by
  rw [← List.append_assoc, List.replicate_append_replicate]
  have hrun : quoteRun quote (List.replicate (extra + 3) quote ++ rest) = extra + 3 :=
    quoteRun_replicate (extra + 3) hrest
  have hdrop : (List.replicate (extra + 3) quote ++ rest).drop (extra + 3) = rest := by
    rw [List.drop_append, List.length_replicate]
    simp
  have hcons : List.replicate (extra + 3) quote ++ rest =
      quote :: (List.replicate (extra + 2) quote ++ rest) := rfl
  rw [hcons] at hrun hdrop ⊢
  have hextra : min 2 (extra + 3 - 3) = extra := by omega
  rw [blockRest, if_pos rfl, if_pos (by omega), hrun, hextra]
  · show some (List.replicate extra quote, List.drop (extra + 3) _) = _
    rw [hdrop]
  · exact fun _ heq _ => hquote heq

/-- A quote at which no three quotes start is read as it is. -/
theorem blockRest_quote {s : List Char} (h : quoteRun quote (quote :: s) < 3) :
    blockRest quote (quote :: s) = (blockRest quote s).map fun r => (quote :: r.1, r.2) := by
  rw [blockRest, if_pos rfl, if_neg (by omega)]
  exact fun _ heq _ => hquote heq

end

theorem blockRest_plain {quote c : Char} (hquote : c ≠ quote)
    (hbackslash : c = '\\' → quote ≠ doubleQuote) (hplain : c = '\n' ∨ isPlain c = true)
    (s : List Char) :
    blockRest quote (c :: s) = (blockRest quote s).map fun r => (c :: r.1, r.2) := by
  have hreturn : c ≠ '\r' := by
    rintro rfl
    revert hplain
    decide
  rw [blockRest, if_neg hquote, if_neg (by simpa using hbackslash), if_pos (by simpa using hplain)]
  exact fun _ heq _ => hreturn heq

theorem blockRest_escape {c mark : Char} {s rest : List Char}
    (hmark : mark ∉ [' ', '\t', '\n', '\r']) (h : escape? (mark :: s) = some (c, rest)) :
    blockRest doubleQuote ('\\' :: mark :: s) =
      (blockRest doubleQuote rest).map fun r => (c :: r.1, r.2) := by
  have hfolded : folded? (mark :: s) = none := by
    simp only [List.mem_cons, List.not_mem_nil, or_false, not_or] at hmark
    obtain ⟨hspace, htab, hline, hreturn⟩ := hmark
    simp [folded?, skipSpaces, isSpace, lineEnd?, hspace, htab, hline, hreturn]
  rw [blockRest, if_neg (by decide), if_pos (by decide)]
  · split
    · next hsome =>
      rw [hfolded] at hsome
      cases hsome
    · split
      · next hnone =>
        rw [h] at hnone
        cases hnone
      · next hsome =>
        rw [h] at hsome
        cases hsome
        rfl
  · intro _ heq _
    exact absurd heq (by decide)

theorem blockRest_escapedChar {c : Char} (hquote : c ≠ doubleQuote) (rest : List Char) :
    blockRest doubleQuote (escapedChar c ++ rest) =
      (blockRest doubleQuote rest).map fun r => (c :: r.1, r.2) := by
  rcases escapedChar_cases c with ⟨heq, hplain, hbackslash⟩ | ⟨mark, more, heq, hmark, hescape⟩
  · rw [heq]
    exact blockRest_plain hquote (fun h => absurd h hbackslash) (.inr hplain) rest
  · rw [heq]
    exact blockRest_escape hmark (hescape rest)

theorem escapedFrom_quote (room : Nat) (s : List Char) :
    escapedFrom true (room + 1) (doubleQuote :: s) = doubleQuote :: escapedFrom true room s := by
  simp [escapedFrom]

theorem escapedFrom_quote_zero (block : Bool) (s : List Char) :
    escapedFrom block 0 (doubleQuote :: s) =
      '\\' :: doubleQuote :: escapedFrom block (if block then 2 else 0) s := by
  simp [escapedFrom]

theorem escapedFrom_lineEnd (room : Nat) (s : List Char) :
    escapedFrom true room ('\n' :: s) = '\n' :: escapedFrom true 2 s := by
  simp [escapedFrom, doubleQuote]

theorem escapedFrom_other (room : Nat) {c : Char} (hquote : c ≠ doubleQuote) (hline : c ≠ '\n')
    (s : List Char) : escapedFrom true room (c :: s) = escapedChar c ++ escapedFrom true 2 s := by
  simp [escapedFrom, hquote, hline]

theorem head?_escapedFrom {block : Bool} {room : Nat} {c : Char} (hquote : c ≠ doubleQuote)
    (s rest : List Char) : (escapedFrom block room (c :: s) ++ rest).head? ≠ some doubleQuote := by
  unfold escapedFrom
  rw [if_neg hquote]
  split
  · exact head?_cons_ne hquote _
  · rcases escapedChar_cases c with ⟨heq, -, -⟩ | ⟨mark, more, heq, -, -⟩
    · rw [heq]
      exact head?_cons_ne hquote _
    · rw [heq]
      exact head?_cons_ne (by decide) _

/-- An escaped text starts with at most as many quotes as there is room for, unless it ends with
them. -/
theorem quoteRun_escapedFrom (room : Nat) (s : List Char) :
    (∃ extra ≤ room, s = List.replicate extra doubleQuote ∧ escapedFrom true room s = s) ∨
      ∀ rest, quoteRun doubleQuote (escapedFrom true room s ++ rest) ≤ room := by
  induction s generalizing room with
  | nil => exact .inl ⟨0, Nat.zero_le room, rfl, rfl⟩
  | cons c s ih =>
    by_cases hquote : c = doubleQuote
    · subst hquote
      cases room with
      | zero =>
        refine .inr fun rest => ?_
        rw [escapedFrom_quote_zero]
        exact Nat.le_of_eq (quoteRun_of_head? (head?_cons_ne (by decide) _))
      | succ room =>
        rw [escapedFrom_quote]
        rcases ih room with ⟨extra, hextra, hs, hspelt⟩ | hrun
        · refine .inl ⟨extra + 1, Nat.succ_le_succ hextra, ?_, ?_⟩
          · rw [List.replicate_succ, ← hs]
          · rw [hspelt]
        · refine .inr fun rest => ?_
          rw [List.cons_append, quoteRun_cons]
          exact Nat.succ_le_succ (hrun rest)
    · refine .inr fun rest => ?_
      rw [quoteRun_of_head? (head?_escapedFrom hquote s rest)]
      exact Nat.zero_le room

/-- A text with escapes between triple quotes is read back, whatever it holds. -/
theorem blockRest_escapedFrom {room : Nat} (hroom : room ≤ 2) (s : List Char) {rest : List Char}
    (hrest : rest.head? ≠ some doubleQuote) :
    blockRest doubleQuote (escapedFrom true room s ++ (List.replicate 3 doubleQuote ++ rest)) =
      some (s, rest) := by
  induction s generalizing room with
  | nil => exact blockRest_closing (by decide) (Nat.zero_le 2) hrest
  | cons c s ih =>
    by_cases hquote : c = doubleQuote
    · subst hquote
      cases room with
      | zero =>
        have hmark : doubleQuote ∉ [' ', '\t', '\n', '\r'] := by decide
        rw [escapedFrom_quote_zero, List.cons_append, List.cons_append,
          blockRest_escape hmark rfl, if_pos rfl, ih (Nat.le_refl 2)]
        rfl
      | succ room =>
        -- either the text ends with the quotes that start here, or fewer than three stand here
        rcases quoteRun_escapedFrom (room + 1) (doubleQuote :: s) with
          ⟨extra, hextra, hs, hspelt⟩ | hrun
        · rw [hspelt, hs]
          exact blockRest_closing (by decide) (Nat.le_trans hextra hroom) hrest
        · have hrun := hrun (List.replicate 3 doubleQuote ++ rest)
          rw [escapedFrom_quote, List.cons_append] at hrun ⊢
          rw [blockRest_quote (by decide) (by omega), ih (by omega)]
          rfl
    · by_cases hline : c = '\n'
      · subst hline
        rw [escapedFrom_lineEnd, List.cons_append,
          blockRest_plain hquote (by decide) (.inl rfl), ih (Nat.le_refl 2)]
        rfl
      · rw [escapedFrom_other room hquote hline, List.append_assoc, blockRest_escapedChar hquote,
          ih (Nat.le_refl 2)]
        rfl

theorem hasTriple_of_cons {quote c : Char} {s : List Char}
    (h : hasTriple quote (c :: s) = false) : hasTriple quote s = false := by
  match s with
  | [] => rfl
  | [_] => rfl
  | a :: b :: s =>
    rw [hasTriple, Bool.or_eq_false_iff] at h
    exact h.2

/-- A text without triple quotes starts with at most two quotes, unless it ends with them. -/
theorem quoteRun_of_hasTriple {quote : Char} {s : List Char} (h : hasTriple quote s = false) :
    (∃ extra ≤ 2, s = List.replicate extra quote) ∨ ∀ rest, quoteRun quote (s ++ rest) < 3 := by
  have hhead : ∀ {c : Char} (t : List Char), c ≠ quote → quoteRun quote (c :: t) = 0 :=
    fun t hne => quoteRun_of_head? (head?_cons_ne hne t)
  match s with
  | [] => exact .inl ⟨0, by decide, rfl⟩
  | [a] =>
    by_cases ha : a = quote
    · exact .inl ⟨1, by decide, by rw [ha]; rfl⟩
    · refine .inr fun rest => ?_
      rw [List.cons_append, hhead _ ha]
      decide
  | [a, b] =>
    by_cases ha : a = quote
    · by_cases hb : b = quote
      · exact .inl ⟨2, by decide, by rw [ha, hb]; rfl⟩
      · refine .inr fun rest => ?_
        rw [ha, List.cons_append, quoteRun_cons, List.cons_append, hhead _ hb]
        decide
    · refine .inr fun rest => ?_
      rw [List.cons_append, hhead _ ha]
      decide
  | a :: b :: c :: s =>
    refine .inr fun rest => ?_
    rw [hasTriple, Bool.or_eq_false_iff] at h
    by_cases ha : a = quote
    · rw [ha, List.cons_append, quoteRun_cons]
      by_cases hb : b = quote
      · rw [hb, List.cons_append, quoteRun_cons]
        have hc : c ≠ quote := by
          rintro rfl
          simp [ha, hb] at h
        rw [List.cons_append, hhead _ hc]
        decide
      · rw [List.cons_append, hhead _ hb]
        decide
    · rw [List.cons_append, hhead _ ha]
      decide

theorem isPrintable_cons {c : Char} {s : List Char} :
    isPrintable (c :: s) = true ↔ (c = '\n' ∨ isPlain c = true) ∧ isPrintable s = true := by
  unfold isPrintable isControl
  rw [List.any_cons, Bool.not_or, Bool.and_eq_true]
  exact and_congr_left fun _ => by cases isPlain c <;> simp

/-- A text between triple single quotes is read back if it is printable and holds no three of
them. -/
theorem blockRest_append {s : List Char} (hprint : isPrintable s = true)
    (htriple : hasTriple singleQuote s = false) {rest : List Char}
    (hrest : rest.head? ≠ some singleQuote) :
    blockRest singleQuote (s ++ (List.replicate 3 singleQuote ++ rest)) = some (s, rest) := by
  induction s with
  | nil => exact blockRest_closing (by decide) (Nat.zero_le 2) hrest
  | cons c s ih =>
    obtain ⟨hplain, hprint⟩ := isPrintable_cons.1 hprint
    have hread := ih hprint (hasTriple_of_cons htriple)
    by_cases hquote : c = singleQuote
    · subst hquote
      rcases quoteRun_of_hasTriple htriple with ⟨extra, hextra, hs⟩ | hrun
      · rw [hs]
        exact blockRest_closing (by decide) hextra hrest
      · have hrun := hrun (List.replicate 3 singleQuote ++ rest)
        rw [List.cons_append] at hrun ⊢
        rw [blockRest_quote (by decide) hrun, hread]
        rfl
    · have hmarks : singleQuote ≠ doubleQuote := by decide
      rw [List.cons_append, blockRest_plain hquote (fun _ => hmarks) hplain, hread]
      rfl

/-! ## Strings -/

/-- A text that starts with neither quote. -/
def StartsUnquoted (s : List Char) : Prop :=
  s.head? ≠ some doubleQuote ∧ s.head? ≠ some singleQuote

theorem startsUnquoted_cons {c : Char} (hdouble : c ≠ doubleQuote) (hsingle : c ≠ singleQuote)
    (s : List Char) : StartsUnquoted (c :: s) :=
  ⟨head?_cons_ne hdouble s, head?_cons_ne hsingle s⟩

theorem text?_basic {s : List Char} (h : ∀ more, s ≠ doubleQuote :: doubleQuote :: more) :
    text? (doubleQuote :: s) = (basicRest s).map fun r => (String.ofList r.1, r.2) := by
  unfold text?
  split
  · next more heq => exact absurd (List.cons.inj heq).2 (h more)
  · next _ heq => rw [(List.cons.inj heq).2]
  · next heq => exact absurd (List.cons.inj heq).1 (by decide)
  · next heq => exact absurd (List.cons.inj heq).1 (by decide)
  · next hother _ _ => exact absurd rfl (hother s)

theorem text?_literal {s : List Char} (h : ∀ more, s ≠ singleQuote :: singleQuote :: more) :
    text? (singleQuote :: s) = (literalRest s).map fun r => (String.ofList r.1, r.2) := by
  unfold text?
  split
  · next heq => exact absurd (List.cons.inj heq).1 (by decide)
  · next heq => exact absurd (List.cons.inj heq).1 (by decide)
  · next more heq => exact absurd (List.cons.inj heq).2 (h more)
  · next _ heq => rw [(List.cons.inj heq).2]
  · next hother => exact absurd rfl (hother s)

theorem text?_block {quote : Char} (h : quote = doubleQuote ∨ quote = singleQuote)
    (s : List Char) : text? (List.replicate 3 quote ++ s) =
      (blockRest quote (skipLineEnd s)).map fun r => (String.ofList r.1, r.2) := by
  rcases h with rfl | rfl <;> rfl

theorem eq_nil_of_head?_escapedFrom {s rest : List Char}
    (h : (escapedFrom false 0 s ++ rest).head? = some doubleQuote) : s = [] := by
  cases s with
  | nil => rfl
  | cons c s =>
    by_cases hquote : c = doubleQuote
    · subst hquote
      rw [escapedFrom_quote_zero] at h
      exact absurd h (head?_cons_ne (by decide) _)
    · exact absurd h (head?_escapedFrom hquote s rest)

theorem text?_basicSpelling (s : List Char) {rest : List Char} (hrest : StartsUnquoted rest) :
    text? (basicSpelling s ++ rest) = some (String.ofList s, rest) := by
  have hspelling : basicSpelling s ++ rest =
      doubleQuote :: (escapedFrom false 0 s ++ doubleQuote :: rest) := by
    simp [basicSpelling]
  -- only an empty text puts two marks side by side, and no third one follows
  have hmarks : ∀ more, escapedFrom false 0 s ++ doubleQuote :: rest ≠
      doubleQuote :: doubleQuote :: more := by
    intro more heq
    have hempty : s = [] := eq_nil_of_head?_escapedFrom (by rw [heq]; rfl)
    rw [hempty] at heq
    refine hrest.1 ?_
    rw [(List.cons.inj heq).2]
    rfl
  rw [hspelling, text?_basic hmarks, basicRest_escapedFrom]
  rfl

theorem text?_literalSpelling {s : List Char} (hempty : s ≠ []) (hline : isOneLine s = true)
    (hquote : singleQuote ∉ s) (rest : List Char) :
    text? (literalSpelling s ++ rest) = some (String.ofList s, rest) := by
  have hspelling : literalSpelling s ++ rest = singleQuote :: (s ++ singleQuote :: rest) := by
    simp [literalSpelling]
  have hmarks : ∀ more, s ++ singleQuote :: rest ≠ singleQuote :: singleQuote :: more := by
    intro more heq
    obtain ⟨c, t, rfl⟩ := List.exists_cons_of_ne_nil hempty
    rw [← (List.cons.inj heq).1] at hquote
    exact hquote List.mem_cons_self
  rw [hspelling, text?_literal hmarks, literalRest_append hline hquote]
  rfl

theorem skipLineEnd_cons {c : Char} (hline : c ≠ '\n') (hreturn : c ≠ '\r') (s : List Char) :
    skipLineEnd (c :: s) = c :: s := by
  unfold skipLineEnd
  rw [lineEnd?_cons hline hreturn]
  rfl

theorem ne_lineEnd_of_isPlain {c : Char} (h : isPlain c = true) : c ≠ '\n' ∧ c ≠ '\r' := by
  constructor
  · rintro rfl
    exact absurd h (by decide)
  · rintro rfl
    exact absurd h (by decide)

theorem text?_blockSpelling {quote : Char} (hmarks : quote = doubleQuote ∨ quote = singleQuote)
    {s body rest : List Char}
    (hbody : (if quote = doubleQuote then escapedFrom true 2 s else s) = body)
    (hread : blockRest quote (body ++ (List.replicate 3 quote ++ rest)) = some (s, rest))
    (hstart : '\n' ∉ s → skipLineEnd (body ++ (List.replicate 3 quote ++ rest)) =
      body ++ (List.replicate 3 quote ++ rest)) :
    text? (blockSpelling quote s ++ rest) = some (String.ofList s, rest) := by
  unfold blockSpelling
  rw [hbody]
  by_cases hline : '\n' ∈ s
  · have hspelling : List.replicate 3 quote ++ ['\n'] ++ body ++ List.replicate 3 quote ++ rest =
        List.replicate 3 quote ++ ('\n' :: (body ++ (List.replicate 3 quote ++ rest))) := by
      simp only [List.append_assoc, List.cons_append, List.nil_append]
    simp only [List.contains_iff_mem, hline, if_true]
    rw [hspelling, text?_block hmarks]
    show (blockRest quote (body ++ (List.replicate 3 quote ++ rest))).map _ = _
    rw [hread]
    rfl
  · have hspelling : List.replicate 3 quote ++ body ++ List.replicate 3 quote ++ rest =
        List.replicate 3 quote ++ (body ++ (List.replicate 3 quote ++ rest)) := by
      simp only [List.append_assoc]
    simp only [List.contains_iff_mem, hline, if_false]
    rw [hspelling, text?_block hmarks, hstart hline, hread]
    rfl

/-- A text between triple double quotes is read back, whatever it holds. -/
theorem text?_blockSpelling_doubleQuote (s : List Char) {rest : List Char}
    (hrest : StartsUnquoted rest) :
    text? (blockSpelling doubleQuote s ++ rest) = some (String.ofList s, rest) := by
  refine text?_blockSpelling (.inl rfl) (if_pos rfl)
    (blockRest_escapedFrom (Nat.le_refl 2) s hrest.1) fun hline => ?_
  cases s with
  | nil => exact skipLineEnd_cons (by decide) (by decide) _
  | cons c s =>
    by_cases hquote : c = doubleQuote
    · subst hquote
      rw [escapedFrom_quote]
      exact skipLineEnd_cons (by decide) (by decide) _
    · have hc : c ≠ '\n' := fun heq => hline (heq ▸ List.mem_cons_self)
      rw [escapedFrom_other 2 hquote hc]
      rcases escapedChar_cases c with ⟨heq, hplain, -⟩ | ⟨mark, more, heq, -, -⟩
      · rw [heq]
        exact skipLineEnd_cons hc (ne_lineEnd_of_isPlain hplain).2 _
      · rw [heq]
        exact skipLineEnd_cons (by decide) (by decide) _

theorem text?_blockSpelling_singleQuote {s : List Char} (hprint : isPrintable s = true)
    (htriple : hasTriple singleQuote s = false) {rest : List Char} (hrest : StartsUnquoted rest) :
    text? (blockSpelling singleQuote s ++ rest) = some (String.ofList s, rest) := by
  refine text?_blockSpelling (.inr rfl) (if_neg (by decide))
    (blockRest_append hprint htriple hrest.2) fun hline => ?_
  cases s with
  | nil => exact skipLineEnd_cons (by decide) (by decide) _
  | cons c s =>
    have hc : c ≠ '\n' := fun heq => hline (heq ▸ List.mem_cons_self)
    rcases (isPrintable_cons.1 hprint).1 with heq | hplain
    · exact absurd heq hc
    · exact skipLineEnd_cons hc (ne_lineEnd_of_isPlain hplain).2 _

/-- Every string is read back from its spelling, if no quote follows it. -/
theorem text?_stringSpelling (s : List Char) {rest : List Char} (hrest : StartsUnquoted rest) :
    text? (stringSpelling s ++ rest) = some (String.ofList s, rest) := by
  unfold stringSpelling
  split
  · exact text?_basicSpelling s hrest
  split
  · next hbasic hliteral =>
    rw [Bool.and_eq_true] at hliteral
    refine text?_literalSpelling ?_ hliteral.1 (by simpa using hliteral.2) rest
    rintro rfl
    exact hbasic rfl
  split
  · exact text?_blockSpelling_doubleQuote s hrest
  split
  · next hprintable =>
    rw [Bool.and_eq_true, Bool.not_eq_true'] at hprintable
    exact text?_blockSpelling_singleQuote hprintable.1 hprintable.2 hrest
  split
  · exact text?_blockSpelling_doubleQuote s hrest
  · exact text?_basicSpelling s hrest

theorem exists_blockSpelling (quote : Char) (s : List Char) :
    ∃ rest, blockSpelling quote s = quote :: rest := by
  unfold blockSpelling
  by_cases hline : '\n' ∈ s
  · simp [hline, List.replicate_succ]
  · simp [hline, List.replicate_succ]

theorem exists_stringSpelling (s : List Char) :
    ∃ quote rest, stringSpelling s = quote :: rest ∧
      (quote = doubleQuote ∨ quote = singleQuote) := by
  obtain ⟨inDouble, hdouble⟩ := exists_blockSpelling doubleQuote s
  obtain ⟨inSingle, hsingle⟩ := exists_blockSpelling singleQuote s
  unfold stringSpelling
  split
  · exact ⟨doubleQuote, _, rfl, .inl rfl⟩
  split
  · exact ⟨singleQuote, _, rfl, .inr rfl⟩
  split
  · exact ⟨doubleQuote, inDouble, hdouble, .inl rfl⟩
  split
  · exact ⟨singleQuote, inSingle, hsingle, .inr rfl⟩
  split
  · exact ⟨doubleQuote, inDouble, hdouble, .inl rfl⟩
  · exact ⟨doubleQuote, _, rfl, .inl rfl⟩

/-! ## Names -/

theorem keyName?_basicSpelling (s rest : List Char) :
    keyName? (basicSpelling s ++ rest) = some (String.ofList s, rest) := by
  have hspelling : basicSpelling s ++ rest =
      doubleQuote :: (escapedFrom false 0 s ++ doubleQuote :: rest) := by
    simp [basicSpelling]
  rw [hspelling, keyName?, if_pos rfl, basicRest_escapedFrom]
  rfl

theorem keyName?_literalSpelling {s : List Char} (hline : isOneLine s = true)
    (hquote : singleQuote ∉ s) (rest : List Char) :
    keyName? (literalSpelling s ++ rest) = some (String.ofList s, rest) := by
  have hspelling : literalSpelling s ++ rest = singleQuote :: (s ++ singleQuote :: rest) := by
    simp [literalSpelling]
  rw [hspelling, keyName?, if_neg (by decide), if_pos rfl, literalRest_append hline hquote]
  rfl

theorem keyName?_bare {s : List Char} (hempty : s ≠ []) (hbare : s.all isBare = true)
    {rest : List Char} (hrest : ∀ c ∈ rest.head?, isBare c = false) :
    keyName? (s ++ rest) = some (String.ofList s, rest) := by
  obtain ⟨c, t, rfl⟩ := List.exists_cons_of_ne_nil hempty
  rw [List.all_cons, Bool.and_eq_true] at hbare
  have hdouble : c ≠ doubleQuote := by
    rintro rfl
    exact absurd hbare.1 (by decide)
  have hsingle : c ≠ singleQuote := by
    rintro rfl
    exact absurd hbare.1 (by decide)
  have hstop : rest.takeWhile isBare = [] ∧ rest.dropWhile isBare = rest := by
    cases rest with
    | nil => exact ⟨rfl, rfl⟩
    | cons d rest => simp [hrest d rfl]
  have hall : ∀ d ∈ t, isBare d = true := List.all_eq_true.1 hbare.2
  rw [List.cons_append, keyName?, if_neg hdouble, if_neg hsingle, if_pos hbare.1,
    List.takeWhile_append_of_pos hall, List.dropWhile_append_of_pos hall, hstop.1, hstop.2,
    List.append_nil]

/-- Every name is read back from its spelling, if no bare character follows it. -/
theorem keyName?_keySpelling (s : List Char) {rest : List Char}
    (hrest : ∀ c ∈ rest.head?, isBare c = false) :
    keyName? (keySpelling s ++ rest) = some (String.ofList s, rest) := by
  unfold keySpelling
  split
  · next hbare =>
    rw [Bool.and_eq_true] at hbare
    exact keyName?_bare (by simpa using hbare.1) hbare.2 hrest
  split
  · exact keyName?_basicSpelling s rest
  split
  · next hliteral =>
    rw [Bool.and_eq_true] at hliteral
    exact keyName?_literalSpelling hliteral.1 (by simpa using hliteral.2) rest
  · exact keyName?_basicSpelling s rest

theorem exists_keySpelling (s : List Char) :
    ∃ c rest, keySpelling s = c :: rest ∧
      (isBare c = true ∨ c = doubleQuote ∨ c = singleQuote) := by
  unfold keySpelling
  split
  · next hbare =>
    rw [Bool.and_eq_true] at hbare
    obtain ⟨c, t, rfl⟩ := List.exists_cons_of_ne_nil (by simpa using hbare.1 : s ≠ [])
    exact ⟨c, t, rfl, .inl (List.all_eq_true.1 hbare.2 c List.mem_cons_self)⟩
  split
  · exact ⟨doubleQuote, _, rfl, .inr (.inl rfl)⟩
  split
  · exact ⟨singleQuote, _, rfl, .inr (.inr rfl)⟩
  · exact ⟨doubleQuote, _, rfl, .inr (.inl rfl)⟩

end PackagePlan.Toml
