/-
  What exclusion patterns say of paths. A pattern is read without separators at its end and without
  one `./` in front, and what is left is compared with the text of a path and of the paths above it.
  A pattern without wildcards therefore names a directory only if it is spelled tightly: then it
  takes out what lies at or below its components, and in any other spelling it takes out nothing
  (`parse_literal_covers`). A pattern with wildcards, but without `**`, looks at as many components
  as it has itself (`Bounded`, `bounded_of_parse`), since nothing but a separator stands for one.
-/
import Mathlib.Data.List.TakeWhile
import PackagePlan.Proofs.Exclusion
import PackagePlan.Proofs.Glob.Parts
import PackagePlan.Proofs.Graph.Roots

namespace PackagePlan

/-- Between parts there is one separator less than there are parts. -/
theorem Text.count_joined {separator : Char} {parts : List (List Char)} (hne : parts ≠ [])
    (h : ∀ part ∈ parts, separator ∉ part) :
    (joined separator parts).count separator + 1 = parts.length := by
  induction parts with
  | nil => exact absurd rfl hne
  | cons first rest ih =>
    obtain ⟨hfirst, hrest⟩ := List.forall_mem_cons.1 h
    have hnone := List.count_eq_zero_of_not_mem hfirst
    cases rest with
    | nil => simp [joined, hnone]
    | cons second more =>
      have hcount := ih (List.cons_ne_nil _ _) hrest
      rw [joined, List.count_append, List.count_cons_self, hnone, hcount, Nat.zero_add]
      · rfl
      · exact List.cons_ne_nil _ _

namespace Exclusion

open PackagePlan.Path

/-! ## Reading a pattern -/

/-- Around the core of a pattern stand at most one `./` in front and separators at the end. -/
theorem exists_core (s : List Char) : ∃ before after, s = before ++ (core s ++ after) ∧
    (before = [] ∨ before = ['.', '/']) ∧ ∀ c ∈ after, c = '/' := by
  have hsplit : s = (s.reverse.dropWhile (· == '/')).reverse ++
      (s.reverse.takeWhile (· == '/')).reverse := by
    rw [← List.reverse_append, List.takeWhile_append_dropWhile, List.reverse_reverse]
  have hafter : ∀ c ∈ (s.reverse.takeWhile (· == '/')).reverse, c = '/' := fun c hc => by
    simpa using List.mem_takeWhile_imp (List.mem_reverse.1 hc)
  unfold core
  split
  · next rest hcore =>
    rw [hcore] at hsplit
    exact ⟨['.', '/'], _, hsplit, .inr rfl, hafter⟩
  · exact ⟨[], _, hsplit, .inl rfl, hafter⟩

theorem core_isInfix (s : List Char) : core s <:+: s := by
  obtain ⟨before, after, hsplit, -, -⟩ := exists_core s
  exact ⟨before, after, by rw [List.append_assoc, ← hsplit]⟩

/-- A pattern that is read is relative and has a core, and its glob is read off the core. -/
theorem parse_eq_ok {target text : String} {exclusion : Exclusion}
    (h : parse target text = .ok exclusion) :
    (⟨text⟩ : Path).isAbsolute = false ∧ core text.toList ≠ [] ∧
      Glob.Spells (core text.toList) exclusion.glob.tokens := by
  unfold parse at h
  split at h
  · next glob hglob =>
    cases h
    unfold globOf at hglob
    dsimp only at hglob
    split at hglob
    · cases hglob
    next hrelative =>
    split at hglob
    · cases hglob
    split at hglob
    · cases hglob
    next hwhole =>
    unfold Glob.parse at hglob
    rw [String.toList_ofList] at hglob
    obtain ⟨tokens, htokens, rfl⟩ := Outcome.map_eq_ok.1 hglob
    rw [head?_text, Bool.not_eq_true] at hrelative
    refine ⟨hrelative, fun hnil => hwhole ?_, Glob.spells_of_tokensFrom htokens⟩
    rw [hnil]
    rfl
  · cases h

/-- What a glob accepts is a non-empty prefix of the steps of the path. -/
theorem covers_iff {exclusion : Exclusion} {steps : List Component}
    (h : ∀ c ∈ steps, c.IsStep) :
    exclusion.covers (ofComponents steps) = true ↔ ∃ above, above ≠ [] ∧ above <+: steps ∧
      Glob.accepts exclusion.glob.tokens (ofComponents above).text.toList = true := by
  rw [covers_ofComponents h]
  unfold TakesOut Glob.acceptsText
  rw [components_ofComponents h]
  simp only [Glob.crosses_eq_accepts]

/-! ## Patterns without wildcards -/

/-- The pattern has no `.` component and no two separators in a row, but for one `./` in front and
separators at the end. -/
def IsTight (text : String) : Prop := AreFull (Text.fields '/' (core text.toList))

/-- Separators at the end are no components. -/
theorem filterMap_fields_append {after : List Char} (h : ∀ c ∈ after, c = '/')
    (inner : List Char) :
    (Text.fields '/' (inner ++ after)).filterMap Component.ofField? =
      (Text.fields '/' inner).filterMap Component.ofField? := by
  induction after generalizing inner with
  | nil => rw [List.append_nil]
  | cons c rest ih =>
    obtain ⟨rfl, hrest⟩ := List.forall_mem_cons.1 h
    have hvoid := ih hrest []
    rw [List.nil_append] at hvoid
    rw [Text.fields_append, List.filterMap_append, hvoid]
    exact List.append_nil _

/-- The core of a pattern has the components of the pattern. -/
theorem filterMap_fields_core (s : List Char) :
    (Text.fields '/' (core s)).filterMap Component.ofField? =
      (Text.fields '/' s).filterMap Component.ofField? := by
  obtain ⟨before, after, hsplit, hbefore, hafter⟩ := exists_core s
  conv_rhs => rw [hsplit]
  rcases hbefore with rfl | rfl
  · exact (filterMap_fields_append hafter (core s)).symm
  · have hdot : ['.', '/'] ++ (core s ++ after) = ['.'] ++ '/' :: (core s ++ after) := rfl
    rw [hdot, Text.fields_append, List.filterMap_append, filterMap_fields_append hafter]
    rfl

theorem undotted_eq {text : String} (h : (⟨text⟩ : Path).isAbsolute = false) :
    (⟨text⟩ : Path).undotted =
      (Text.fields '/' (core text.toList)).filterMap Component.ofField? := by
  unfold undotted
  rw [filter_components h, filterMap_fields_core]
  exact (filterMap_fields ⟨text⟩).symm

theorem map_render_filterMap {fields : List (List Char)} (h : AreFull fields) :
    ((fields.filterMap Component.ofField?).map fun c => c.render.toList) = fields := by
  induction fields with
  | nil => rfl
  | cons field rest ih =>
    obtain ⟨hfield, hrest⟩ := List.forall_mem_cons.1 h
    cases hc : Component.ofField? field with
    | none =>
      rw [isVoid_iff.2 hc] at hfield
      cases hfield
    | some c =>
      rw [List.filterMap_cons_some hc, List.map_cons, ih hrest, Component.render_of_ofField? hc,
        String.toList_ofList]

theorem filterMap_render {steps : List Component} (h : ∀ c ∈ steps, c.IsStep) :
    (steps.map fun c => c.render.toList).filterMap Component.ofField? = steps := by
  rw [List.filterMap_map]
  exact (List.filterMap_congr fun c hc => Component.ofField?_render (h c hc)).trans
    List.filterMap_some

/-- A text is the shortest spelling of steps exactly when its stretches are these steps. -/
theorem text_eq_iff {steps : List Component} (hne : steps ≠ []) (h : ∀ c ∈ steps, c.IsStep)
    {s : List Char} : (ofComponents steps).text.toList = s ↔
      Text.fields '/' s = steps.map fun c => c.render.toList := by
  constructor
  · rintro rfl
    exact fields_ofComponents hne h
  · intro hfields
    rw [text_ofComponents h, ← hfields, Text.joined_fields]

section
variable {target text : String} {exclusion : Exclusion}
  (h : parse target text = .ok exclusion) (hliteral : ∀ c ∈ text.toList, Glob.IsLiteral c)
include h hliteral

theorem accepts_literal_iff {s : List Char} :
    Glob.accepts exclusion.glob.tokens s = true ↔ s = core text.toList := by
  obtain ⟨-, -, hspells⟩ := parse_eq_ok h
  rw [hspells.eq_map_char fun c hc => hliteral c ((core_isInfix text.toList).subset hc),
    Glob.accepts_map_char]

/-- Whatever the spelling of a path, its own text and those of the paths above it are compared. -/
theorem covers_literal_text_iff (p : Path) :
    exclusion.covers p = true ↔ ∃ above ∈ p.ancestors, above.text.toList = core text.toList := by
  obtain ⟨-, hcore, -⟩ := parse_eq_ok h
  unfold covers Glob.acceptsText
  simp only [List.any_eq_true, Bool.and_eq_true, Glob.crosses_eq_accepts,
    accepts_literal_iff h hliteral]
  refine exists_congr fun above => and_congr_right fun _ => and_iff_right_of_imp fun htext => ?_
  rw [Bool.not_eq_true', Bool.eq_false_iff]
  intro hempty
  rw [String.isEmpty_iff.1 hempty] at htext
  exact hcore htext.symm

theorem covers_literal_steps_iff {steps : List Component} (hsteps : ∀ c ∈ steps, c.IsName) :
    exclusion.covers (ofComponents steps) = true ↔
      IsTight text ∧ (⟨text⟩ : Path).undotted <+: steps := by
  obtain ⟨hrelative, -, -⟩ := parse_eq_ok h
  have hstep : ∀ {above : List Component}, above <+: steps → ∀ c ∈ above, c.IsStep :=
    fun habove c hc => (hsteps c (habove.subset hc)).isStep
  rw [covers_iff (hstep (List.prefix_refl _)), undotted_eq hrelative]
  simp only [accepts_literal_iff h hliteral]
  constructor
  · rintro ⟨above, hne, habove, htext⟩
    have hfields := (text_eq_iff hne (hstep habove)).1 htext
    unfold IsTight
    rw [hfields, filterMap_render (hstep habove)]
    exact ⟨areFull_render (hstep habove), habove⟩
  · rintro ⟨htight, hprefix⟩
    have hfields := map_render_filterMap htight
    refine ⟨_, ?_, hprefix, (text_eq_iff ?_ (hstep hprefix)).2 hfields.symm⟩
    all_goals
      intro hnil
      rw [hnil] at hfields
      exact Text.fields_ne_nil _ _ hfields.symm

/-- A literal pattern is compared as a text. A path in the shortest spelling is taken out if it lies
at or below the components of a pattern that is spelled tightly; in any other spelling the pattern
takes out no such path. -/
theorem parse_literal_covers :
    (∀ p : Path, exclusion.covers p = true ↔
      ∃ above ∈ p.ancestors, above.text.toList = core text.toList) ∧
    ∀ steps, (∀ c ∈ steps, c.IsName) → (exclusion.covers (ofComponents steps) = true ↔
      IsTight text ∧ (⟨text⟩ : Path).undotted <+: steps) :=
  ⟨covers_literal_text_iff h hliteral, fun _ => covers_literal_steps_iff h hliteral⟩

end

/-- The path of a file two directories below its target. -/
def nested : List Component := [.name "x", .name "sub", .name "c.c"]

theorem isName_nested : ∀ c ∈ nested, c.IsName := by
  have hx : isFileName "x" = true := by decide
  have hsub : isFileName "sub" = true := by decide
  have hfile : isFileName "c.c" = true := by decide
  exact List.forall_mem_cons.2 ⟨hx,
    List.forall_mem_cons.2 ⟨hsub, List.forall_mem_singleton.2 hfile⟩⟩

/-- With a `.` between its names, the directory of the file is not found in the path. -/
theorem dotted_covers_nothing : ∃ exclusion, parse "app" "x/./sub" = .ok exclusion ∧
    (∀ c ∈ "x/./sub".toList, Glob.IsLiteral c) ∧ (⟨"x/./sub"⟩ : Path).undotted <+: nested ∧
    exclusion.covers (ofComponents nested) = false :=
  ⟨⟨"x/./sub", ⟨"x/./sub".toList.map .char⟩⟩, by decide +kernel,
    Glob.isLiteral_of_not_mem (by decide) (by decide) (by decide), by decide +kernel,
    by decide +kernel⟩

/-- A `./` in front and separators at the end do no harm. -/
theorem parse_literal_covers_nested : ∃ exclusion, parse "app" "./x/sub//" = .ok exclusion ∧
    (∀ c ∈ "./x/sub//".toList, Glob.IsLiteral c) ∧ (∀ c ∈ nested, c.IsName) ∧
    exclusion.covers (ofComponents nested) = true := by
  have hparse : parse "app" "./x/sub//" = .ok ⟨"./x/sub//", ⟨"x/sub".toList.map .char⟩⟩ := by
    decide +kernel
  have hliteral : ∀ c ∈ "./x/sub//".toList, Glob.IsLiteral c :=
    Glob.isLiteral_of_not_mem (by decide) (by decide) (by decide)
  have htight : IsTight "./x/sub//" := by
    unfold IsTight AreFull
    decide +kernel
  exact ⟨_, hparse, hliteral, isName_nested,
    ((parse_literal_covers hparse hliteral).2 nested isName_nested).2 ⟨htight, by decide +kernel⟩⟩

/-! ## Patterns without `**` -/

/-- The number of components that the pattern looks at: one more than it has separators outside
classes. -/
def depth (exclusion : Exclusion) : Nat := exclusion.glob.tokens.count (.char '/') + 1

/-- What keeps a pattern to its own number of components. -/
structure Bounded (exclusion : Exclusion) : Prop where
  /-- Whatever the spelling of a path, of its own text and of those of the paths above it only one
  with as many stretches between separators as the pattern has components can be accepted. -/
  covers_text_iff : ∀ p : Path, exclusion.covers p = true ↔ ∃ above ∈ p.ancestors,
    above.text ≠ "" ∧ above.text.toList.count '/' + 1 = exclusion.depth ∧
      exclusion.glob.acceptsText above.text = true
  /-- The first components of a path decide, as many as the pattern has. -/
  covers_iff : ∀ steps, (∀ c ∈ steps, c.IsName) →
    (exclusion.covers (ofComponents steps) = true ↔ exclusion.depth ≤ steps.length ∧
      exclusion.glob.acceptsText (ofComponents (steps.take exclusion.depth)).text = true)
  /-- Paths that agree in these components are taken out together. -/
  covers_congr : ∀ steps other, (∀ c ∈ steps, c.IsName) → (∀ c ∈ other, c.IsName) →
    steps.take exclusion.depth = other.take exclusion.depth →
      exclusion.covers (ofComponents steps) = exclusion.covers (ofComponents other)
  /-- What lies below a path that is taken out is taken out. -/
  covers_below : ∀ steps more, (∀ c ∈ steps ++ more, c.IsName) →
    exclusion.covers (ofComponents steps) = true →
      exclusion.covers (ofComponents (steps ++ more)) = true
  /-- The glob accepts a text that can be shared out among its parts. -/
  accepts_iff : ∀ text, exclusion.glob.acceptsText text = true ↔
    ∃ pieces, List.Forall₂ Glob.Token.Spans exclusion.glob.tokens pieces ∧
      text.toList = pieces.flatten
  /-- No part but a separator stands for a stretch with a separator in it. -/
  spans : ∀ token ∈ exclusion.glob.tokens, token ≠ .char '/' →
    ∀ piece, token.Spans piece → '/' ∉ piece

/-- A path has one separator less than steps. -/
theorem count_text_ofComponents {steps : List Component} (hne : steps ≠ [])
    (h : ∀ c ∈ steps, c.IsStep) :
    (ofComponents steps).text.toList.count '/' + 1 = steps.length := by
  rw [text_ofComponents h, Text.count_joined (by simpa using hne), List.length_map]
  intro part hpart
  obtain ⟨c, hc, rfl⟩ := List.mem_map.1 hpart
  exact Component.slash_not_mem_render (h c hc)

section
variable {exclusion : Exclusion} (h : .anyDirectories ∉ exclusion.glob.tokens)
include h

theorem count_of_accepts {s : List Char} (haccepts : Glob.accepts exclusion.glob.tokens s = true) :
    s.count '/' + 1 = exclusion.depth :=
  congrArg (· + 1) (Glob.count_separator h haccepts)

/-- Only a prefix with as many components as the pattern can be accepted. -/
theorem length_of_accepts {above : List Component} (hne : above ≠ [])
    (habove : ∀ c ∈ above, c.IsStep)
    (haccepts : Glob.accepts exclusion.glob.tokens (ofComponents above).text.toList = true) :
    above.length = exclusion.depth := by
  rw [← count_text_ofComponents hne habove, count_of_accepts h haccepts]

theorem covers_iff_depth {steps : List Component} (hsteps : ∀ c ∈ steps, c.IsName) :
    exclusion.covers (ofComponents steps) = true ↔ exclusion.depth ≤ steps.length ∧
      exclusion.glob.acceptsText (ofComponents (steps.take exclusion.depth)).text = true := by
  have hstep : ∀ {above : List Component}, above <+: steps → ∀ c ∈ above, c.IsStep :=
    fun habove c hc => (hsteps c (habove.subset hc)).isStep
  rw [covers_iff (hstep (List.prefix_refl _)), Glob.acceptsText, Glob.crosses_eq_accepts]
  constructor
  · rintro ⟨above, hne, habove, haccepts⟩
    have hlength := length_of_accepts h hne (hstep habove) haccepts
    rw [← hlength, ← List.prefix_iff_eq_take.1 habove]
    exact ⟨habove.length_le, haccepts⟩
  · rintro ⟨hlength, haccepts⟩
    refine ⟨_, ?_, List.take_prefix _ _, haccepts⟩
    intro hnil
    have hshort := congrArg List.length hnil
    rw [List.length_take_of_le hlength] at hshort
    exact Nat.succ_ne_zero _ hshort

theorem covers_iff_count (p : Path) :
    exclusion.covers p = true ↔ ∃ above ∈ p.ancestors, above.text ≠ "" ∧
      above.text.toList.count '/' + 1 = exclusion.depth ∧
        exclusion.glob.acceptsText above.text = true := by
  unfold covers Glob.acceptsText
  simp only [List.any_eq_true, Bool.and_eq_true, Glob.crosses_eq_accepts]
  refine exists_congr fun above => and_congr_right fun _ => and_congr ?_ ?_
  · rw [Bool.not_eq_true', Bool.eq_false_iff]
    exact not_congr String.isEmpty_iff
  · exact ⟨fun haccepts => ⟨count_of_accepts h haccepts, haccepts⟩, And.right⟩

theorem bounded : exclusion.Bounded where
  covers_text_iff := covers_iff_count h
  covers_iff := fun _ => covers_iff_depth h
  covers_congr := fun steps other hsteps hother hsame => by
    have hlength := congrArg List.length hsame
    rw [List.length_take, List.length_take] at hlength
    rw [Bool.eq_iff_iff, covers_iff_depth h hsteps, covers_iff_depth h hother, hsame]
    exact and_congr_left' ⟨fun hle => by omega, fun hle => by omega⟩
  covers_below := fun steps more hall hcovers => by
    obtain ⟨hsteps, -⟩ := List.forall_mem_append.1 hall
    obtain ⟨hlength, haccepts⟩ := (covers_iff_depth h hsteps).1 hcovers
    refine (covers_iff_depth h hall).2 ⟨?_, ?_⟩
    · rw [List.length_append]
      exact Nat.le_add_right_of_le hlength
    · rwa [List.take_append_of_le_length hlength]
  accepts_iff := fun text => by
    unfold Glob.acceptsText
    rw [Glob.crosses_eq_accepts, Glob.accepts_iff_pieces h]
  spans := fun token _ htoken piece hspans => by
    rw [← List.count_eq_zero, hspans.count_separator, List.count_eq_zero, List.mem_singleton]
    exact Ne.symm htoken

end

/-- A pattern without `**` looks at as many components as it has itself; where it has no class,
these are those between the separators of its core. -/
theorem bounded_of_parse {target text : String} {exclusion : Exclusion}
    (h : parse target text = .ok exclusion) (hrecursive : ¬['*', '*'] <:+: text.toList) :
    exclusion.Bounded ∧ ('[' ∉ text.toList →
      exclusion.depth = (core text.toList).count '/' + 1) := by
  obtain ⟨-, -, hspells⟩ := parse_eq_ok h
  have hcore := core_isInfix text.toList
  have hnot : .anyDirectories ∉ exclusion.glob.tokens := fun hmem =>
    hrecursive ((hspells.infix_of_anyDirectories hmem).trans hcore)
  refine ⟨bounded hnot, fun hclass => ?_⟩
  unfold depth
  rw [hspells.count_separator (fun hmem => hclass (hcore.subset hmem)) hnot]

/-- With a class that a separator is written in, only the separator outside counts. -/
theorem bounded_of_parse_class : ∃ exclusion, parse "app" "./x/[a-z/]*/" = .ok exclusion ∧
    ¬['*', '*'] <:+: "./x/[a-z/]*/".toList ∧ exclusion.Bounded ∧ exclusion.depth = 2 ∧
    exclusion.covers (ofComponents nested) = true := by
  have hparse : parse "app" "./x/[a-z/]*/" = .ok ⟨"./x/[a-z/]*/",
      ⟨[.char 'x', .char '/', .within [('a', 'z'), ('/', '/')], .anyRun]⟩⟩ := by
    decide +kernel
  have hrecursive : ¬['*', '*'] <:+: "./x/[a-z/]*/".toList := by decide +kernel
  have hbounded := (bounded_of_parse hparse hrecursive).1
  exact ⟨_, hparse, hrecursive, hbounded, rfl,
    (hbounded.covers_iff nested isName_nested).2 (by decide +kernel)⟩

end Exclusion

end PackagePlan
