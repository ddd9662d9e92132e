/-
  How the lines of a written document are read back: a key and its value (`statement?_pairText`)
  and the header of a table (`statement?_header`). On a line of its own a value is a string or an
  array of strings; every other table or array that a document has gets blocks.
-/
import PackagePlan.Proofs.Toml.Spelling
import PackagePlan.Toml.Grammar
import PackagePlan.Toml.Layout

namespace PackagePlan.Toml

theorem not_isBare_of_head? {c : Char} (h : isBare c = false) (s : List Char) :
    ∀ d ∈ (c :: s).head?, isBare d = false := by
  rintro d hd
  cases hd
  exact h

/-! ## Words -/

/-- The characters that have a meaning between words. -/
def marks : List Char := [' ', '\t', '\n', '\r', '#', '[', ']', '\x7b', '.', '=', ',']

/-- A text that starts with none of the marks. -/
def StartsWord (s : List Char) : Prop := ∃ c rest, s = c :: rest ∧ c ∉ marks

theorem StartsWord.append {s : List Char} (h : StartsWord s) (rest : List Char) :
    StartsWord (s ++ rest) := by
  obtain ⟨c, more, rfl, hc⟩ := h
  exact ⟨c, more ++ rest, rfl, hc⟩

theorem not_mem_marks_of_isBare {c : Char} (h : isBare c = true) : c ∉ marks := by
  have hall : marks.all (fun d => !isBare d) = true := rfl
  intro hc
  have hbare := List.all_eq_true.1 hall c hc
  rw [h] at hbare
  cases hbare

theorem startsWord_stringSpelling (s : List Char) : StartsWord (stringSpelling s) := by
  obtain ⟨quote, rest, heq, hquote⟩ := exists_stringSpelling s
  refine ⟨quote, rest, heq, ?_⟩
  rcases hquote with rfl | rfl <;> decide

theorem startsWord_keySpelling (s : List Char) : StartsWord (keySpelling s) := by
  obtain ⟨c, rest, heq, hbare | rfl | rfl⟩ := exists_keySpelling s
  · exact ⟨c, rest, heq, not_mem_marks_of_isBare hbare⟩
  · exact ⟨_, rest, heq, by decide⟩
  · exact ⟨_, rest, heq, by decide⟩

theorem isSpace_of_not_mem_marks {c : Char} (h : c ∉ marks) : isSpace c = false := by
  unfold marks at h
  simp only [List.mem_cons, not_or] at h
  simp [isSpace, h.1, h.2.1]

/-- A word starts neither a blank, nor a line end, nor a comment. -/
theorem StartsWord.exists_cons {s : List Char} (h : StartsWord s) :
    ∃ c rest, s = c :: rest ∧ isSpace c = false ∧ c ≠ '\n' ∧ c ≠ '\r' ∧ c ≠ '#' := by
  obtain ⟨c, rest, rfl, hc⟩ := h
  refine ⟨c, rest, rfl, isSpace_of_not_mem_marks hc, ?_, ?_, ?_⟩
  all_goals
    rintro rfl
    exact hc (by decide)

theorem skipSpaces_cons {c : Char} (h : isSpace c = false) (s : List Char) :
    skipSpaces (c :: s) = c :: s :=
  List.dropWhile_cons_of_neg (by simp [h])

theorem skipSpaces_word {s : List Char} (h : StartsWord s) : skipSpaces s = s := by
  obtain ⟨c, rest, rfl, hspace, -⟩ := h.exists_cons
  exact skipSpaces_cons hspace rest

theorem skipGap_cons {c : Char} (hspace : isSpace c = false) (hline : c ≠ '\n')
    (hreturn : c ≠ '\r') (hcomment : c ≠ '#') (s : List Char) :
    skipGap false (c :: s) = c :: s := by
  rw [skipGap, if_neg hline, if_neg (by decide), if_neg (by simp [hspace]), if_neg hcomment]
  exact fun _ heq _ => hreturn heq

theorem skipGap_word {s : List Char} (h : StartsWord s) : skipGap false s = s := by
  obtain ⟨c, rest, rfl, hspace, hline, hreturn, hcomment⟩ := h.exists_cons
  exact skipGap_cons hspace hline hreturn hcomment rest

/-- A line that starts with a word or a bracket does not end a statement. -/
theorem statementEnd?_cons {c : Char} (hspace : isSpace c = false) (hline : c ≠ '\n')
    (hreturn : c ≠ '\r') (hcomment : c ≠ '#') (s : List Char) :
    statementEnd? (c :: s) = none := by
  have hskip : skipComment (c :: s) = c :: s := by
    unfold skipComment
    split
    · next heq => exact absurd (List.cons.inj heq).1 hcomment
    · rfl
  unfold statementEnd?
  rw [skipSpaces_cons hspace, hskip]
  show lineEnd? (c :: s) = none
  exact lineEnd?_cons hline hreturn s

theorem statementEnd?_word {s : List Char} (h : StartsWord s) : statementEnd? s = none := by
  obtain ⟨c, rest, rfl, hspace, hline, hreturn, hcomment⟩ := h.exists_cons
  exact statementEnd?_cons hspace hline hreturn hcomment rest

/-! ## Values -/

/-- Whether a value is a string. -/
def Value.isText : Value → Bool
  | string _ => true
  | _ => false

/-- Whether a value is read back from a line: a string, or an array of strings. -/
def Value.isLine : Value → Bool
  | string _ => true
  | array items => items.all isText
  | _ => false

theorem Value.exists_of_isText {v : Value} (h : v.isText = true) : ∃ s, v = string s := by
  cases v with
  | string s => exact ⟨s, rfl⟩
  | _ => cases h

theorem value?_of_quote {quote : Char} (h : quote = doubleQuote ∨ quote = singleQuote)
    (budget : Nat) (s : List Char) :
    value? budget (quote :: s) = (text? (quote :: s)).map fun r => (.string r.1, r.2) := by
  rcases h with rfl | rfl <;> cases budget <;> rfl

theorem value?_string (budget : Nat) (s : String) {rest : List Char} (hrest : StartsUnquoted rest) :
    value? budget (valueText (.string s) ++ rest) = some (.string s, rest) := by
  obtain ⟨quote, more, heq, hquote⟩ := exists_stringSpelling s.toList
  have hread := text?_stringSpelling s.toList hrest
  rw [valueText]
  rw [heq, List.cons_append] at hread ⊢
  rw [value?_of_quote hquote, hread]
  simp

section

variable {read : Reader Value} {s start : List Char} (hgap : skipGap false s = start)

include hgap

theorem items?_nil {rest : List Char} (hstart : start = ']' :: rest) :
    items? read s = some ([], rest) := by
  rw [items?, hgap, hstart]
  rfl

theorem items?_last {value : Value} {after rest : List Char} (hstart : StartsWord start)
    (hread : read start = some (value, after)) (hafter : skipGap false after = ']' :: rest) :
    items? read s = some ([value], rest) := by
  obtain ⟨c, more, rfl, hc⟩ := hstart
  rw [items?, hgap]
  split
  · next heq =>
    rw [(List.cons.inj heq).1] at hc
    exact absurd (by decide) hc
  · rw [hread]
    simp only [hafter]

theorem items?_cons {value : Value} {after rest : List Char} (hstart : StartsWord start)
    (hread : read start = some (value, after)) (hafter : skipGap false after = ',' :: rest)
    (hlength : rest.length < s.length) :
    items? read s = (items? read rest).map fun r => (value :: r.1, r.2) := by
  obtain ⟨c, more, rfl, hc⟩ := hstart
  rw [items?, hgap]
  split
  · next heq =>
    rw [(List.cons.inj heq).1] at hc
    exact absurd (by decide) hc
  · rw [hread]
    simp only [hafter]
    rw [dif_pos hlength]

end

/-- Strings on lines of their own are read back as the items of an array. -/
theorem items?_itemLines (budget : Nat) {items : List Value} (h : items.all Value.isText = true)
    (rest : List Char) :
    items? (value? budget) ((itemTexts items).flatMap itemLine ++ '\n' :: ']' :: rest) =
      some (items, rest) := by
  induction items with
  | nil => exact items?_nil rfl rfl
  | cons item items ih =>
    rw [List.all_cons, Bool.and_eq_true] at h
    obtain ⟨s, rfl⟩ := Value.exists_of_isText h.1
    have hih := ih h.2
    generalize hmore : (itemTexts items).flatMap itemLine ++ '\n' :: ']' :: rest = more at hih
    have hline : (itemTexts (.string s :: items)).flatMap itemLine ++ '\n' :: ']' :: rest =
        "\n    ".toList ++ (valueText (.string s) ++ ',' :: more) := by
      rw [← hmore, itemTexts, List.flatMap_cons]
      simp only [itemLine, List.append_assoc, List.cons_append, List.nil_append]
    have hword : StartsWord (valueText (.string s) ++ ',' :: more) := by
      rw [valueText]
      exact (startsWord_stringSpelling s.toList).append _
    have hunquoted : StartsUnquoted (',' :: more) :=
      startsUnquoted_cons (by decide) (by decide) _
    have hgap : skipGap false ("\n    ".toList ++ (valueText (.string s) ++ ',' :: more)) =
        valueText (.string s) ++ ',' :: more := skipGap_word hword
    have hcomma : skipGap false (',' :: more) = ',' :: more :=
      skipGap_cons (by decide) (by decide) (by decide) (by decide) more
    rw [hline, items?_cons hgap hword (value?_string budget s hunquoted) hcomma, hih]
    · rfl
    · simp
      omega

/-- The items of an array are read back from what stands behind the opening bracket. -/
theorem items?_arrayText (budget : Nat) {items : List Value} (h : items.all Value.isText = true)
    (rest : List Char) :
    items? (value? budget) ((arrayText (itemTexts items)).tail ++ rest) = some (items, rest) := by
  match items with
  | [] => exact items?_nil rfl rfl
  | [item] =>
    obtain ⟨s, rfl⟩ := Value.exists_of_isText (by simpa using h)
    have hline : (arrayText (itemTexts [.string s])).tail ++ rest =
        valueText (.string s) ++ ']' :: rest := by
      simp [itemTexts, arrayText]
    have hword : StartsWord (valueText (.string s) ++ ']' :: rest) := by
      rw [valueText]
      exact (startsWord_stringSpelling s.toList).append (']' :: rest)
    have hunquoted : StartsUnquoted (']' :: rest) :=
      startsUnquoted_cons (by decide) (by decide) _
    rw [hline]
    exact items?_last (skipGap_word hword) hword (value?_string budget s hunquoted)
      (skipGap_cons (by decide) (by decide) (by decide) (by decide) rest)
  | first :: second :: more =>
    have hline : (arrayText (itemTexts (first :: second :: more))).tail ++ rest =
        (itemTexts (first :: second :: more)).flatMap itemLine ++ '\n' :: ']' :: rest := by
      simp [itemTexts, arrayText]
    rw [hline]
    exact items?_itemLines budget h rest

theorem exists_arrayText (items : List (List Char)) :
    arrayText items = '[' :: (arrayText items).tail := by
  match items with
  | [] => rfl
  | [_] => rfl
  | _ :: _ :: _ => rfl

/-- A string or an array of strings is read back from its text. -/
theorem value?_line (budget : Nat) {v : Value} (h : v.isLine = true) {rest : List Char}
    (hrest : StartsUnquoted rest) :
    value? (budget + 1) (valueText v ++ rest) = some (v, rest) := by
  cases v with
  | string s => exact value?_string (budget + 1) s hrest
  | array items =>
    rw [valueText, exists_arrayText, List.cons_append]
    show (items? (value? budget) ((arrayText (itemTexts items)).tail ++ rest)).map _ = _
    rw [items?_arrayText budget h]
    rfl
  | _ => cases h

/-! ## Keys -/

section

variable {s after : List Char} {name : String}
  (hname : keyName? (skipSpaces s) = some (name, after))

include hname

theorem keyNames?_last (hdot : (skipSpaces after).head? ≠ some '.') :
    keyNames? s = some ([name], skipSpaces after) := by
  rw [keyNames?]
  split
  · next hnone =>
    rw [hname] at hnone
    cases hnone
  · next hsome =>
    rw [hname] at hsome
    cases hsome
    split
    · next heq =>
      rw [heq] at hdot
      exact absurd rfl hdot
    · rfl

theorem keyNames?_dot {rest : List Char} (hdot : skipSpaces after = '.' :: rest) :
    keyNames? s = (keyNames? rest).map fun r => (name :: r.1, r.2) := by
  rw [keyNames?]
  split
  · next hnone =>
    rw [hname] at hnone
    cases hnone
  · next hsome =>
    rw [hname] at hsome
    cases hsome
    split
    · next heq =>
      rw [hdot] at heq
      rw [(List.cons.inj heq).2]
    · next hother => exact absurd hdot (hother rest)

end

theorem keyName?_word (name : String) {rest : List Char}
    (hrest : ∀ c ∈ rest.head?, isBare c = false) :
    keyName? (skipSpaces (keySpelling name.toList ++ rest)) = some (name, rest) := by
  rw [skipSpaces_word ((startsWord_keySpelling name.toList).append rest),
    keyName?_keySpelling name.toList hrest, String.ofList_toList]

/-- A way is read back from its text, up to the mark that follows it. -/
theorem keyNames?_wayText {names : List String} (hnames : names ≠ []) {rest : List Char}
    (hrest : ∀ c ∈ rest.head?, isBare c = false) (hdot : (skipSpaces rest).head? ≠ some '.') :
    keyNames? (wayText names ++ rest) = some (names, skipSpaces rest) := by
  induction names with
  | nil => exact absurd rfl hnames
  | cons name names ih =>
    cases names with
    | nil => exact keyNames?_last (keyName?_word name hrest) hdot
    | cons second more =>
      have htext : wayText (name :: second :: more) ++ rest =
          keySpelling name.toList ++ '.' :: (wayText (second :: more) ++ rest) := by
        simp [wayText, Text.joined]
      have hname := keyName?_word name
        (not_isBare_of_head? (c := '.') (by decide) (wayText (second :: more) ++ rest))
      rw [htext, keyNames?_dot hname (skipSpaces_cons (by decide) _), ih (List.cons_ne_nil _ _)]
      rfl

theorem key?_wayText {way : List String} (name : String) (h : way.length < nestingLimit)
    {rest : List Char} (hrest : ∀ c ∈ rest.head?, isBare c = false)
    (hdot : (skipSpaces rest).head? ≠ some '.') :
    key? (wayText (way ++ [name]) ++ rest) = some ((way, name), skipSpaces rest) := by
  have hlength : (way ++ [name]).length ≤ nestingLimit := by
    rw [List.length_append]
    exact h
  unfold key?
  rw [keyNames?_wayText (by simp) hrest hdot]
  simp only [List.getLast?_append, List.getLast?_singleton, Option.some_or, if_pos hlength,
    List.dropLast_concat]

theorem startsWord_wayText {names : List String} (h : names ≠ []) : StartsWord (wayText names) := by
  match names with
  | [name] => exact startsWord_keySpelling name.toList
  | name :: second :: more =>
    rw [wayText, List.map_cons, List.map_cons, Text.joined]
    · exact (startsWord_keySpelling name.toList).append _
    · exact List.cons_ne_nil _ _

/-! ## Statements -/

theorem startsWord_valueText {v : Value} (h : v.isLine = true) :
    ∃ c rest, valueText v = c :: rest ∧ isSpace c = false := by
  cases v with
  | string s =>
    obtain ⟨c, rest, heq, hc⟩ := startsWord_stringSpelling s.toList
    exact ⟨c, rest, by rw [valueText, heq], isSpace_of_not_mem_marks hc⟩
  | array items =>
    refine ⟨'[', (arrayText (itemTexts items)).tail, ?_, by decide⟩
    rw [valueText]
    exact exists_arrayText (itemTexts items)
  | _ => cases h

/-- A key and a value are read back from their text. -/
theorem pair?_pairText {budget : Nat} (name : String) {v : Value} (h : v.isLine = true)
    {rest : List Char} (hrest : StartsUnquoted rest) :
    pair? (value? (budget + 1)) (pairText name (valueText v) ++ rest) =
      some (⟨[], name, v⟩, rest) := by
  obtain ⟨c, more, heq, hc⟩ := startsWord_valueText h
  have hread := value?_line budget h hrest
  have htext : pairText name (valueText v) ++ rest =
      wayText ([] ++ [name]) ++ ' ' :: '=' :: ' ' :: (valueText v ++ rest) := by
    simp [pairText, wayText, Text.joined]
  have hskip : skipSpaces (' ' :: (valueText v ++ rest)) = valueText v ++ rest := by
    rw [heq, List.cons_append]
    exact skipSpaces_cons hc (more ++ rest)
  have hequals : skipSpaces (' ' :: '=' :: ' ' :: (valueText v ++ rest)) =
      '=' :: ' ' :: (valueText v ++ rest) := rfl
  have hdot : (skipSpaces (' ' :: '=' :: ' ' :: (valueText v ++ rest))).head? ≠ some '.' := by
    rw [hequals]
    exact head?_cons_ne (by decide) _
  unfold pair?
  rw [htext, key?_wayText name (by decide) (not_isBare_of_head? (by decide) _) hdot, hequals]
  show (value? (budget + 1) (skipSpaces (' ' :: (valueText v ++ rest)))).map _ = _
  rw [hskip, hread]
  rfl

theorem statement?_blank (rest : List Char) : statement? ('\n' :: rest) = some (.blank, rest) := rfl

/-- A line with a key and a value is read back as a statement. -/
theorem statement?_pairText (name : String) {v : Value} (h : v.isLine = true) (rest : List Char) :
    statement? (pairText name (valueText v) ++ '\n' :: rest) =
      some (.pair ⟨[], name, v⟩, rest) := by
  have hword : StartsWord (pairText name (valueText v) ++ '\n' :: rest) := by
    unfold pairText
    rw [List.append_assoc, List.append_assoc]
    exact (startsWord_keySpelling name.toList).append _
  have hunquoted : StartsUnquoted ('\n' :: rest) := startsUnquoted_cons (by decide) (by decide) rest
  have hpair : pair? (value? nestingLimit) (pairText name (valueText v) ++ '\n' :: rest) =
      some (⟨[], name, v⟩, '\n' :: rest) := pair?_pairText name h hunquoted
  have hdeclaration : declaration? (pairText name (valueText v) ++ '\n' :: rest) =
      some (.pair ⟨[], name, v⟩, '\n' :: rest) := by
    obtain ⟨c, more, heq, hc⟩ := hword
    rw [heq] at hpair ⊢
    unfold declaration?
    split
    · next hbracket =>
      rw [(List.cons.inj hbracket).1] at hc
      exact absurd (by decide) hc
    · rw [hpair]
      rfl
  unfold statement?
  rw [statementEnd?_word hword, skipSpaces_word hword, hdeclaration]
  rfl

theorem statement?_bracket (s : List Char) :
    statement? ('[' :: s) = match header? ('[' :: s) with
      | none => none
      | some (header, after) => (statementEnd? after).map fun rest => (.header header, rest) := by
  unfold statement?
  rw [statementEnd?_cons (by decide) (by decide) (by decide) (by decide),
    skipSpaces_cons (by decide)]
  have hdeclaration : declaration? ('[' :: s) =
      (header? ('[' :: s)).map fun found => (.header found.1, found.2) := rfl
  rw [hdeclaration]
  cases header? ('[' :: s) <;> rfl

/-- The line of a header. -/
def Header.text : Header → List Char
  | table way name => '[' :: wayText (way ++ [name]) ++ [']', '\n']
  | item way name => ['[', '['] ++ wayText (way ++ [name]) ++ [']', ']', '\n']

theorem skipSpaces_bracket (s : List Char) : skipSpaces (']' :: s) = ']' :: s :=
  skipSpaces_cons (by decide) s

theorem key?_bracket {way : List String} (name : String) (h : way.length < nestingLimit)
    (s : List Char) :
    key? (wayText (way ++ [name]) ++ ']' :: s) = some ((way, name), ']' :: s) := by
  have hdot : (skipSpaces (']' :: s)).head? ≠ some '.' := by
    rw [skipSpaces_bracket]
    exact head?_cons_ne (by decide) s
  rw [key?_wayText name h (not_isBare_of_head? (by decide) s) hdot, skipSpaces_bracket]

theorem header?_table {way : List String} (name : String) (h : way.length < nestingLimit)
    (rest : List Char) :
    header? ('[' :: (wayText (way ++ [name]) ++ ']' :: rest)) = some (.table way name, rest) := by
  have hkey := key?_bracket name h rest
  have hnames : way ++ [name] ≠ [] := by simp
  obtain ⟨c, more, heq, hc⟩ := (startsWord_wayText hnames).append (']' :: rest)
  rw [heq] at hkey ⊢
  unfold header?
  split
  · next hdouble =>
    rw [(List.cons.inj (List.cons.inj hdouble).2).1] at hc
    exact absurd (by decide) hc
  · next hsingle =>
    rw [← (List.cons.inj hsingle).2, hkey]
    rfl
  · next hother => exact absurd rfl (hother (c :: more))

theorem header?_item {way : List String} (name : String) (h : way.length < nestingLimit)
    (rest : List Char) :
    header? ('[' :: '[' :: (wayText (way ++ [name]) ++ ']' :: ']' :: rest)) =
      some (.item way name, rest) := by
  rw [header?, key?_bracket name h (']' :: rest)]
  rfl

/-- The line of a header is read back as a statement, unless too many names lead to it. -/
theorem statement?_header {header : Header} (h : header.way.length < nestingLimit)
    (rest : List Char) : statement? (header.text ++ rest) = some (.header header, rest) := by
  cases header with
  | table way name =>
    have hway : way.length < nestingLimit := h
    have htext : (Header.table way name).text ++ rest =
        '[' :: (wayText (way ++ [name]) ++ ']' :: '\n' :: rest) := by
      simp [Header.text]
    rw [htext, statement?_bracket, header?_table name hway]
    rfl
  | item way name =>
    have hway : way.length < nestingLimit := h
    have htext : (Header.item way name).text ++ rest =
        '[' :: '[' :: (wayText (way ++ [name]) ++ ']' :: ']' :: '\n' :: rest) := by
      simp [Header.text]
    rw [htext, statement?_bracket, header?_item name hway]
    rfl

end PackagePlan.Toml
