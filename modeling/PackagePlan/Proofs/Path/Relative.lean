/-
  A path seen from a base, for every spelling of both. What is left of a path behind its first
  components has just the others (`components_dropComponents`), so a path is found below a base
  exactly if it goes on from the components of the base, and then it is seen as what comes behind
  them (`components_of_relativeTo?`, `exists_relativeTo?_iff`).
-/
import PackagePlan.Proofs.Path.Prefix

namespace PackagePlan.Path

/-! ## Stretches that count -/

theorem filterMap_dropWhile_isVoid (fields : List (List Char)) :
    (fields.dropWhile isVoid).filterMap Component.ofField? =
      fields.filterMap Component.ofField? := by
  induction fields with
  | nil => rfl
  | cons field rest ih =>
    rw [List.dropWhile_cons]
    split
    · next hvoid => rw [ih, List.filterMap_cons_none (isVoid_iff.1 hvoid)]
    · rfl

theorem filterMap_trimVoid (fields : List (List Char)) :
    (trimVoid fields).filterMap Component.ofField? = fields.filterMap Component.ofField? := by
  unfold trimVoid
  rw [List.filterMap_reverse, filterMap_dropWhile_isVoid, List.filterMap_reverse,
    List.reverse_reverse]

theorem filterMap_dropSteps (n : Nat) (fields : List (List Char)) :
    (dropSteps n fields).filterMap Component.ofField? =
      (fields.filterMap Component.ofField?).drop n := by
  fun_induction dropSteps n fields with
  | case1 => rfl
  | case2 => exact List.drop_nil.symm
  | case3 n field rest hvoid ih => rw [ih, List.filterMap_cons_none (isVoid_iff.1 hvoid)]
  | case4 n field rest hfull ih =>
    cases hfield : Component.ofField? field with
    | none => exact absurd (isVoid_iff.2 hfield) hfull
    | some c => rw [ih, List.filterMap_cons_some hfield, List.drop_succ_cons]

/-- Trimming takes stretches away at the end. -/
theorem exists_eq_trimVoid (fields : List (List Char)) :
    ∃ voids, fields = trimVoid fields ++ voids := by
  refine ⟨(fields.reverse.takeWhile isVoid).reverse, ?_⟩
  unfold trimVoid
  rw [← List.reverse_append, List.takeWhile_append_dropWhile, List.reverse_reverse]

theorem trimVoid_sublist (fields : List (List Char)) : (trimVoid fields).Sublist fields := by
  obtain ⟨voids, hfields⟩ := exists_eq_trimVoid fields
  have hfront := List.sublist_append_left (trimVoid fields) voids
  rwa [← hfields] at hfront

theorem dropSteps_sublist (n : Nat) (fields : List (List Char)) :
    (dropSteps n fields).Sublist fields := by
  fun_induction dropSteps n fields with
  | case1 => exact List.Sublist.refl _
  | case2 => exact List.Sublist.refl _
  | case3 n field rest hvoid ih => exact ih.cons field
  | case4 n field rest hfull ih => exact ih.cons field

/-! ## Paths put together from stretches -/

/-- The first of some stretches does not read as the lead of a path. -/
def StartsFull (fields : List (List Char)) : Prop :=
  ∀ first rest, fields = first :: rest → isVoid first = false

theorem splitLead_joined {fields : List (List Char)} (h : StartsFull fields)
    (hslash : ∀ field ∈ fields, '/' ∉ field) :
    splitLead (Text.joined '/' fields) = (.none, Text.joined '/' fields) := by
  match fields with
  | [] => rfl
  | first :: rest =>
    have hfirst := h first rest rfl
    have hfull : first ≠ [] := by rintro rfl; cases hfirst
    have hdot : first ≠ ['.'] := by rintro rfl; cases hfirst
    have hnone := splitLead_of_not_mem (hslash first List.mem_cons_self) hdot
    cases rest with
    | nil => exact hnone
    | cons second more =>
      rw [Text.joined, splitLead_append hfull, hnone]
      exact List.cons_ne_nil _ _

theorem filterMap_fields_joined {fields : List (List Char)}
    (hslash : ∀ field ∈ fields, '/' ∉ field) :
    (Text.fields '/' (Text.joined '/' fields)).filterMap Component.ofField? =
      fields.filterMap Component.ofField? := by
  by_cases hfields : fields = []
  · rw [hfields]
    rfl
  · rw [Text.fields_joined hfields hslash]

/-- Stretches behind no lead have their own components. -/
theorem components_ofBody_none {fields : List (List Char)} (h : StartsFull fields)
    (hslash : ∀ field ∈ fields, '/' ∉ field) :
    (ofBody .none fields).components = fields.filterMap Component.ofField? := by
  have hlead : splitLead (ofBody .none fields).text.toList = (.none, Text.joined '/' fields) := by
    unfold ofBody
    rw [String.toList_ofList]
    exact splitLead_joined h hslash
  unfold components lead body
  rw [hlead]
  exact filterMap_fields_joined hslash

theorem joined_cons (first : List Char) {rest : List (List Char)} (h : rest ≠ []) :
    Text.joined '/' (first :: rest) = first ++ '/' :: Text.joined '/' rest := by
  obtain ⟨second, more, rfl⟩ := List.exists_cons_of_ne_nil h
  rfl

theorem joined_append {fields more : List (List Char)} (h : fields ≠ []) (hmore : more ≠ []) :
    Text.joined '/' (fields ++ more) = Text.joined '/' fields ++ '/' :: Text.joined '/' more := by
  induction fields with
  | nil => exact absurd rfl h
  | cons first rest ih =>
    have hrest : rest ++ more ≠ [] := List.append_ne_nil_of_right_ne_nil _ hmore
    cases rest with
    | nil => exact joined_cons first hmore
    | cons second others =>
      have hfull : second :: others ≠ [] := List.cons_ne_nil _ _
      rw [List.cons_append, joined_cons first hrest, joined_cons first hfull, ih hfull,
        List.append_assoc]
      rfl

theorem toList_ofBody (lead : Lead) (fields : List (List Char)) :
    (ofBody lead fields).text.toList = lead.chars ++ Text.joined '/' fields :=
  String.toList_ofList

/-- A path is the text of its lead and of its stretches. -/
theorem toList_eq (p : Path) : p.text.toList = p.lead.chars ++ Text.joined '/' p.body := by
  unfold lead body
  rw [Text.joined_fields]
  generalize p.text.toList = s
  unfold splitLead
  split <;> rfl

/-- The first stretches of a path have the first of its components. -/
theorem components_ofBody {p : Path} {front rest : List (List Char)}
    (hbody : p.body = front ++ rest) :
    (ofBody p.lead front).components =
      p.lead.component?.toList ++ front.filterMap Component.ofField? := by
  have hslash : ∀ field ∈ front ++ rest, '/' ∉ field := fun field hfield =>
    Text.not_mem_of_mem_fields (show field ∈ p.body from hbody ▸ hfield)
  have hchars := toList_ofBody p.lead front
  have htext := toList_eq p
  generalize hq : ofBody p.lead front = q at hchars ⊢
  rw [hbody] at htext
  by_cases hempty : q.text.toList = []
  · -- Nothing is left, so there was no lead and no full stretch either.
    obtain ⟨hlead, hjoined⟩ := List.append_eq_nil_iff.1 (hchars.symm.trans hempty)
    have hnone : p.lead = .none := by cases hl : p.lead <;> rw [hl] at hlead <;> trivial
    have hfields := filterMap_fields_joined fun field hfield =>
      hslash field (List.mem_append_left rest hfield)
    rw [hjoined] at hfields
    rw [components_of_empty (String.toList_eq_nil_iff.1 hempty), hnone, ← hfields]
    rfl
  by_cases hrest : rest = []
  · rw [hrest, List.append_nil] at hbody htext
    rw [← hchars] at htext
    rw [← show p = q from congrArg Path.mk (String.toList_inj.1 htext), ← hbody]
    rfl
  by_cases hfront : front = []
  · subst hfront
    rw [← hq]
    cases p.lead <;> rfl
  · rw [joined_append hfront hrest, ← List.append_assoc, ← hchars] at htext
    have hsplit := splitLead_append hempty (Text.joined '/' rest)
    rw [← htext] at hsplit
    have hlead : q.lead = p.lead := by
      unfold lead
      rw [hsplit]
    have hstretches : p.body = q.body ++ rest := by
      rw [body, hsplit, Text.fields_append, Text.fields_joined hrest fun field hfield =>
        hslash field (List.mem_append_right front hfield)]
      rfl
    have hsame : q.body = front := List.append_cancel_right (hstretches.symm.trans hbody)
    rw [components_eq, hlead, inner, hsame]

/-- The void stretches at the end of a path do not count. -/
theorem components_ofBody_trimVoid (p : Path) :
    (ofBody p.lead (trimVoid p.body)).components = p.components := by
  obtain ⟨voids, hbody⟩ := exists_eq_trimVoid p.body
  rw [components_ofBody hbody, filterMap_trimVoid]
  rfl

/-! ## Dropping components -/

/-- Stretches behind dropped void ones do not read as a lead. -/
theorem startsFull_trimVoid (fields : List (List Char)) :
    StartsFull (trimVoid (fields.dropWhile isVoid)) := by
  intro first rest hcons
  obtain ⟨voids, hleft⟩ := exists_eq_trimVoid (fields.dropWhile isVoid)
  have hfirst := List.head?_dropWhile_not isVoid fields
  rw [hleft, hcons] at hfirst
  exact hfirst

/-- What is left of a path behind its first components has the others. -/
theorem components_dropComponents (p : Path) (n : Nat) :
    (p.dropComponents n).components = p.components.drop n := by
  unfold dropComponents
  split
  · next hn => rw [hn, List.drop_zero, components_ofBody_trimVoid]
  · next hn =>
    have hlead : p.lead.component?.toList.drop n = [] := by
      refine List.drop_eq_nil_of_le (Nat.le_trans ?_ (Nat.one_le_iff_ne_zero.2 hn))
      cases p.lead <;> decide
    have hslash : ∀ field ∈ trimVoid ((dropSteps (n - p.lead.component?.toList.length)
        p.body).dropWhile isVoid), '/' ∉ field := fun field hfield => by
      have hdropped := (List.dropWhile_sublist isVoid).subset ((trimVoid_sublist _).subset hfield)
      exact Text.not_mem_of_mem_fields ((dropSteps_sublist _ p.body).subset hdropped)
    dsimp only
    rw [components_ofBody_none (startsFull_trimVoid _) hslash, filterMap_trimVoid,
      filterMap_dropWhile_isVoid, filterMap_dropSteps, components_eq, List.drop_append, hlead,
      List.nil_append]
    rfl

/-- A path is found below a base if it goes on from there, and what is seen of it comes behind the
base. -/
theorem components_of_relativeTo? {p base q : Path} (h : p.relativeTo? base = some q) :
    p.components = base.components ++ q.components := by
  unfold relativeTo? at h
  split at h
  · next hstarts =>
    obtain rfl := Option.some.inj h
    rw [components_dropComponents]
    exact (List.prefix_iff_eq_append.1 (startsWith_iff.1 hstarts)).symm
  · cases h

theorem exists_relativeTo?_iff {p base : Path} :
    (∃ q, p.relativeTo? base = some q) ↔ base.components <+: p.components := by
  unfold relativeTo?
  rw [← startsWith_iff]
  split
  · next hstarts => simp [hstarts]
  · next hstarts => simp [hstarts]

/-- A path is seen from a base as what leads from there to it, in every spelling. -/
theorem relativeTo?_leads_iff {p base q : Path} :
    (∃ rest, p.relativeTo? base = some rest ∧ q.components = rest.components) ↔
      p.components = base.components ++ q.components := by
  constructor
  · intro h
    obtain ⟨rest, hrest, hsame⟩ := h
    rw [components_of_relativeTo? hrest, hsame]
  · intro h
    obtain ⟨rest, hrest⟩ := exists_relativeTo?_iff.2 (h ▸ List.prefix_append _ _)
    refine ⟨rest, hrest, ?_⟩
    rw [components_of_relativeTo? hrest] at h
    exact (List.append_cancel_left h).symm

end PackagePlan.Path
