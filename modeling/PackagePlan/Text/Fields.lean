/-
  Fields between separators. Main statements: joining the fields of a text with the separator
  gives the text back, so splitting loses nothing, and fields without the separator are those of
  the text they are joined to.
-/
namespace PackagePlan.Text

/-- The stretches between occurrences of `separator`; there is always at least one. -/
def fields (separator : Char) : List Char → List (List Char)
  | [] => [[]]
  | c :: rest =>
    if c = separator then [] :: fields separator rest
    else match fields separator rest with
      | [] => [[c]]
      | first :: others => (c :: first) :: others

/-- The fields with `separator` between neighbours. -/
def joined (separator : Char) : List (List Char) → List Char
  | [] => []
  | [only] => only
  | first :: others => first ++ separator :: joined separator others

theorem fields_ne_nil (separator : Char) (s : List Char) : fields separator s ≠ [] := by
  cases s with
  | nil => simp [fields]
  | cons c s =>
    simp only [fields]
    split
    · simp
    · split <;> simp

theorem joined_fields (separator : Char) (s : List Char) :
    joined separator (fields separator s) = s := by
  induction s with
  | nil => rfl
  | cons c s ih =>
    simp only [fields]
    split
    · next h =>
      subst h
      cases hf : fields c s with
      | nil => exact absurd hf (fields_ne_nil c s)
      | cons first others => rw [hf] at ih; simp [joined, ih]
    · cases hf : fields separator s with
      | nil => exact absurd hf (fields_ne_nil separator s)
      | cons first others =>
        rw [hf] at ih
        cases others with
        | nil => simpa [joined] using ih
        | cons second more => simpa [joined] using ih

theorem not_mem_of_mem_fields {separator : Char} {s field : List Char}
    (h : field ∈ fields separator s) : separator ∉ field := by
  induction s generalizing field with
  | nil => simp_all [fields]
  | cons c s ih =>
    simp only [fields] at h
    split at h
    · rcases List.mem_cons.1 h with rfl | h
      · simp
      · exact ih h
    · next hc =>
      cases hf : fields separator s with
      | nil => exact absurd hf (fields_ne_nil separator s)
      | cons first others =>
        rw [hf] at h ih
        rcases List.mem_cons.1 h with rfl | h
        · have := ih (List.mem_cons_self ..)
          simp_all [eq_comm]
        · exact ih (List.mem_cons_of_mem _ h)

theorem fields_append (separator : Char) (s rest : List Char) :
    fields separator (s ++ separator :: rest) = fields separator s ++ fields separator rest := by
  induction s with
  | nil => simp [fields]
  | cons c s ih =>
    rw [List.cons_append, fields, fields, ih]
    split
    · rfl
    · cases hf : fields separator s with
      | nil => exact absurd hf (fields_ne_nil separator s)
      | cons first others => rfl

theorem fields_of_not_mem {separator : Char} {s : List Char} (h : separator ∉ s) :
    fields separator s = [s] := by
  induction s with
  | nil => rfl
  | cons c s ih =>
    rw [List.mem_cons, not_or] at h
    obtain ⟨hc, hs⟩ := h
    rw [fields, if_neg (Ne.symm hc), ih hs]

theorem fields_joined {separator : Char} {parts : List (List Char)} (hparts : parts ≠ [])
    (h : ∀ part ∈ parts, separator ∉ part) : fields separator (joined separator parts) = parts := by
  induction parts with
  | nil => exact absurd rfl hparts
  | cons first rest ih =>
    obtain ⟨hfirst, hrest⟩ := List.forall_mem_cons.1 h
    cases rest with
    | nil => exact fields_of_not_mem hfirst
    | cons second more =>
      rw [joined, fields_append, fields_of_not_mem hfirst, ih (List.cons_ne_nil _ _) hrest]
      · rfl
      · exact List.cons_ne_nil _ _

theorem mem_joined {separator c : Char} {parts : List (List Char)}
    (h : c ∈ joined separator parts) : c = separator ∨ ∃ part ∈ parts, c ∈ part := by
  induction parts with
  | nil => cases h
  | cons first rest ih =>
    cases rest with
    | nil => exact .inr ⟨first, List.mem_cons_self, h⟩
    | cons second more =>
      rw [joined, List.mem_append, List.mem_cons] at h
      · rcases h with h | h | h
        · exact .inr ⟨first, List.mem_cons_self, h⟩
        · exact .inl h
        · obtain h | ⟨part, hpart, hc⟩ := ih h
          · exact .inl h
          · exact .inr ⟨part, List.mem_cons_of_mem _ hpart, hc⟩
      · exact List.cons_ne_nil _ _

theorem mem_joined_of_mem {separator c : Char} {parts : List (List Char)} {part : List Char}
    (hpart : part ∈ parts) (h : c ∈ part) : c ∈ joined separator parts := by
  induction parts with
  | nil => cases hpart
  | cons first rest ih =>
    cases rest with
    | nil =>
      obtain rfl := List.mem_singleton.1 hpart
      exact h
    | cons second more =>
      rw [joined, List.mem_append]
      · rcases List.mem_cons.1 hpart with rfl | hpart
        · exact .inl h
        · exact .inr (List.mem_cons_of_mem _ (ih hpart))
      · exact List.cons_ne_nil _ _

/-- The text up to the first character that satisfies `p`, and the text after it, if there is
such a character. -/
def splitFirst? (p : Char → Bool) : List Char → Option (List Char × List Char)
  | [] => none
  | c :: rest =>
    if p c then some ([], rest)
    else (splitFirst? p rest).map fun halves => (c :: halves.1, halves.2)

end PackagePlan.Text
