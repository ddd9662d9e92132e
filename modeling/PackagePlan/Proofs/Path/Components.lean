/-
  What joining does to the components of a path. A relative path adds its steps to those of the
  path it is seen from (`components_join`), so a walk that goes down by file names adds these and
  nothing else (`components_join_step`), and the shortest spelling of a list of steps has just these
  steps (`components_ofComponents`).
-/
import PackagePlan.Path

namespace PackagePlan

namespace Component

/-- A component that can stand behind the lead of a path. -/
def IsStep : Component → Prop
  | parent => True
  | name text => isFileName text = true
  | root | current => False

/-- A component that is a name. -/
def IsName : Component → Prop
  | name text => isFileName text = true
  | _ => False

instance : DecidablePred IsName
  | name text => inferInstanceAs (Decidable (isFileName text = true))
  | root | current | parent => .isFalse id

theorem IsName.isStep {c : Component} (h : c.IsName) : c.IsStep := by
  cases c with
  | name text => exact h
  | _ => exact h.elim

theorem isFileName_iff {text : String} :
    isFileName text = true ↔ '/' ∉ text.toList ∧ text ≠ "" ∧ text ≠ "." ∧ text ≠ ".." := by
  simp [isFileName]

theorem slash_not_mem_render {c : Component} (h : c.IsStep) : '/' ∉ c.render.toList := by
  cases c with
  | root => exact h.elim
  | current => exact h.elim
  | parent => simp [render]
  | name text => exact (isFileName_iff.1 h).1

theorem ofField?_render {c : Component} (h : c.IsStep) : ofField? c.render.toList = some c := by
  cases c with
  | root => exact h.elim
  | current => exact h.elim
  | parent => rfl
  | name text =>
    obtain ⟨-, hempty, hdot, hdots⟩ := isFileName_iff.1 h
    unfold ofField?
    split
    · next hnil => exact absurd (String.toList_inj.1 hnil) hempty
    · next hchars => exact absurd (String.toList_inj.1 hchars) hdot
    · next hchars => exact absurd (String.toList_inj.1 hchars) hdots
    · simp [render]

theorem isStep_of_ofField? {field : List Char} {c : Component} (hslash : '/' ∉ field)
    (h : ofField? field = some c) : c.IsStep := by
  unfold ofField? at h
  split at h
  · cases h
  · cases h
  · cases h
    trivial
  · next hempty hdot hdots =>
    cases h
    refine isFileName_iff.2 ⟨by simpa using hslash, ?_, ?_, ?_⟩
    · exact fun heq => hempty (by simpa using congrArg String.toList heq)
    · exact fun heq => hdot (by simpa using congrArg String.toList heq)
    · exact fun heq => hdots (by simpa using congrArg String.toList heq)

theorem render_of_ofField? {field : List Char} {c : Component} (h : ofField? field = some c) :
    c.render = String.ofList field := by
  unfold ofField? at h
  split at h
  · cases h
  · cases h
  · cases h
    rfl
  · cases h
    rfl

end Component

namespace Path

/-- The components of a path behind its lead. -/
def inner (p : Path) : List Component := p.body.filterMap Component.ofField?

theorem components_eq (p : Path) : p.components = p.lead.component?.toList ++ p.inner := rfl

theorem isStep_of_mem_inner {p : Path} {c : Component} (h : c ∈ p.inner) : c.IsStep := by
  obtain ⟨field, hfield, hc⟩ := List.mem_filterMap.1 h
  exact Component.isStep_of_ofField? (Text.not_mem_of_mem_fields hfield) hc

/-- A path of names only. -/
def IsPlain (p : Path) : Prop := ∀ c ∈ p.components, c.IsName

instance : DecidablePred IsPlain := fun p =>
  inferInstanceAs (Decidable (∀ c ∈ p.components, c.IsName))

theorem IsPlain.isStep {p : Path} (h : p.IsPlain) : ∀ c ∈ p.components, c.IsStep :=
  fun c hc => (h c hc).isStep

theorem isAbsolute_iff {p : Path} : p.isAbsolute = true ↔ p.lead = .root := by
  unfold isAbsolute
  rw [beq_iff_eq]

/-! ## The lead of a text -/

theorem splitLead_append {s : List Char} (hs : s ≠ []) (rest : List Char) :
    splitLead (s ++ '/' :: rest) = ((splitLead s).1, (splitLead s).2 ++ '/' :: rest) := by
  match s with
  | [] => exact absurd rfl hs
  | [c] =>
    by_cases hslash : c = '/'
    · subst hslash
      rfl
    · by_cases hdot : c = '.'
      · subst hdot
        rfl
      · simp [splitLead, hslash, hdot]
  | c :: d :: more =>
    by_cases hslash : c = '/'
    · subst hslash
      rfl
    · by_cases hdot : c = '.'
      · subst hdot
        by_cases hd : d = '/'
        · subst hd
          rfl
        · simp [splitLead, hd]
      · simp [splitLead, hslash, hdot]

theorem splitLead_of_not_mem {s : List Char} (hslash : '/' ∉ s) (hdot : s ≠ ['.']) :
    splitLead s = (.none, s) := by
  unfold splitLead
  split
  · exact absurd List.mem_cons_self hslash
  · exact absurd rfl hdot
  · exact absurd (List.mem_cons_of_mem _ List.mem_cons_self) hslash
  · rfl

/-- A text starts at the root if it starts with a separator. -/
theorem head?_text (p : Path) : (p.text.toList.head? == some '/') = p.isAbsolute := by
  unfold isAbsolute lead
  generalize p.text.toList = s
  unfold splitLead
  split
  · rfl
  · rfl
  · rfl
  · next hslash _ _ =>
    cases s with
    | nil => rfl
    | cons c rest =>
      have hc : c ≠ '/' := fun h => hslash rest (by rw [h])
      have hnone : (Lead.none == Lead.root) = false := rfl
      rw [hnone]
      simpa using hc

/-! ## Joining -/

theorem join_of_empty {p q : Path} (hp : p.text = "") : p.join q = q := by
  unfold join
  split
  · rfl
  · simp [hp]

/-- Behind a path that is not empty, a relative one stands behind one separator. -/
theorem exists_stem {p q : Path} (hp : p.text ≠ "") (hq : q.isAbsolute = false) :
    ∃ stem, (p.join q).text.toList = stem ++ '/' :: q.text.toList ∧
      (p.text.toList = stem ∧ stem ≠ [] ∨ p.text.toList = stem ++ ['/']) := by
  have hchars : p.text.toList ≠ [] := fun h => hp (String.toList_eq_nil_iff.1 h)
  unfold join
  rw [if_neg (by simp [hq])]
  split
  · next hclosed =>
    have hlast : p.text.toList.getLast? = some '/' := by simpa [hp] using hclosed
    obtain ⟨stem, hstem⟩ := List.getLast?_eq_some_iff.1 hlast
    exact ⟨stem, by simp [hstem], .inr hstem⟩
  · exact ⟨p.text.toList, by simp, .inl ⟨rfl, hchars⟩⟩

theorem lead_join {p q : Path} (hp : p.text ≠ "") (hq : q.isAbsolute = false) :
    (p.join q).lead = p.lead := by
  obtain ⟨stem, hjoin, ⟨hstem, hfull⟩ | hstem⟩ := exists_stem hp hq
  · unfold lead
    rw [hjoin, hstem, splitLead_append hfull]
  · unfold lead
    rw [hjoin, hstem]
    cases stem with
    | nil => rfl
    | cons c rest => rw [splitLead_append (List.cons_ne_nil _ _),
        splitLead_append (List.cons_ne_nil _ _)]

/-- The stretches of a joined path: some with the steps of the first path, then those of the
second. -/
theorem exists_body_join {p q : Path} (hp : p.text ≠ "") (hq : q.isAbsolute = false) :
    ∃ before, (p.join q).body = before ++ Text.fields '/' q.text.toList ∧
      before.filterMap Component.ofField? = p.inner := by
  obtain ⟨stem, hjoin, ⟨hstem, hfull⟩ | hstem⟩ := exists_stem hp hq
  · refine ⟨p.body, ?_, rfl⟩
    unfold body
    rw [hjoin, hstem, splitLead_append hfull, Text.fields_append]
  · cases stem with
    | nil =>
      refine ⟨[], ?_, ?_⟩
      · unfold body
        rw [hjoin]
        rfl
      · unfold inner body
        rw [hstem]
        rfl
    | cons c rest =>
      refine ⟨Text.fields '/' (splitLead (c :: rest)).2, ?_, ?_⟩
      · unfold body
        rw [hjoin, splitLead_append (List.cons_ne_nil _ _), Text.fields_append]
      · unfold inner body
        rw [hstem, splitLead_append (List.cons_ne_nil _ _), Text.fields_append]
        simp [Text.fields, Component.ofField?]

/-- The stretches of a whole path that count as components are the steps behind its lead. -/
theorem filterMap_fields (p : Path) :
    (Text.fields '/' p.text.toList).filterMap Component.ofField? = p.inner := by
  unfold inner body
  generalize p.text.toList = s
  unfold splitLead
  split <;> rfl

/-- A character that a path has, apart from separators and dots, stands in one of its steps. -/
theorem mem_text_iff (p : Path) {c : Char} (hslash : c ≠ '/') (hdot : c ≠ '.') :
    c ∈ p.text.toList ↔ ∃ step ∈ p.inner, c ∈ step.render.toList := by
  constructor
  · intro h
    rw [← Text.joined_fields '/' p.text.toList] at h
    obtain ⟨field, hfield, hmem⟩ := (Text.mem_joined h).resolve_left hslash
    cases hstep : Component.ofField? field with
    | some step =>
      refine ⟨step, ?_, ?_⟩
      · rw [← filterMap_fields]
        exact List.mem_filterMap.2 ⟨field, hfield, hstep⟩
      · rwa [Component.render_of_ofField? hstep, String.toList_ofList]
    | none =>
      unfold Component.ofField? at hstep
      split at hstep
      · cases hmem
      · exact absurd (List.mem_singleton.1 hmem) hdot
      · cases hstep
      · cases hstep
  · rintro ⟨step, hstep, hmem⟩
    rw [← filterMap_fields] at hstep
    obtain ⟨field, hfield, hof⟩ := List.mem_filterMap.1 hstep
    rw [Component.render_of_ofField? hof, String.toList_ofList] at hmem
    rw [← Text.joined_fields '/' p.text.toList]
    exact Text.mem_joined_of_mem hfield hmem

theorem inner_join {p q : Path} (hp : p.text ≠ "") (hq : q.isAbsolute = false) :
    (p.join q).inner = p.inner ++ q.inner := by
  obtain ⟨before, hbody, hbefore⟩ := exists_body_join hp hq
  rw [inner, hbody, List.filterMap_append, hbefore, filterMap_fields]

/-- A relative path adds its steps to those of the path it is seen from. -/
theorem components_join {p q : Path} (hp : p.text ≠ "") (hq : q.isAbsolute = false) :
    (p.join q).components = p.components ++ q.inner := by
  rw [components_eq, components_eq, lead_join hp hq, inner_join hp hq, List.append_assoc]

theorem join_text_ne_empty {p q : Path} (hp : p.text ≠ "") : (p.join q).text ≠ "" := by
  cases hq : q.isAbsolute with
  | false =>
    obtain ⟨stem, hjoin, -⟩ := exists_stem hp hq
    intro hempty
    simp [hempty] at hjoin
  | true =>
    unfold join
    rw [if_pos hq]
    intro hempty
    simp [isAbsolute, lead, hempty, splitLead] at hq

theorem join_text_ne_empty_of_right {p q : Path} (hq : q.text ≠ "") : (p.join q).text ≠ "" := by
  by_cases hp : p.text = ""
  · rwa [join_of_empty hp]
  · exact join_text_ne_empty hp

/-- What stands between a path and what is joined to it. -/
def glue (p : Path) : String :=
  if p.text.isEmpty || p.text.toList.getLast? == some '/' then "" else "/"

theorem text_join {p q : Path} (hq : q.isAbsolute = false) :
    (p.join q).text = p.text ++ p.glue ++ q.text := by
  unfold join glue
  rw [if_neg (by simp [hq])]
  split <;> simp

theorem isAbsolute_join {p q : Path} (hp : p.text ≠ "") (hq : q.isAbsolute = false) :
    (p.join q).isAbsolute = p.isAbsolute := by
  unfold isAbsolute
  rw [lead_join hp hq]

theorem glue_append (s : String) {p : Path} (hp : p.text ≠ "") :
    (⟨s ++ p.text⟩ : Path).glue = p.glue := by
  obtain ⟨last, hlast⟩ := Option.ne_none_iff_exists'.1
    (mt List.getLast?_eq_none_iff.1 (mt String.toList_eq_nil_iff.1 hp))
  unfold glue
  simp [hp, hlast]

theorem join_assoc (p : Path) {q r : Path} (hq : q.isAbsolute = false)
    (hr : r.isAbsolute = false) (hfull : q.text ≠ "") :
    (p.join q).join r = p.join (q.join r) := by
  have hqr : (q.join r).isAbsolute = false := (isAbsolute_join hfull hr).trans hq
  have hglue : (p.join q).glue = q.glue := by
    rw [← glue_append (p.text ++ p.glue) hfull, ← text_join hq]
  have htext : ((p.join q).join r).text = (p.join (q.join r)).text := by
    rw [text_join hr, text_join hqr, text_join hq, text_join hr, hglue]
    simp only [String.append_assoc]
  exact congrArg Path.mk htext

/-! ## Steps and names -/

theorem lead_step {c : Component} (h : c.IsStep) : (⟨c.render⟩ : Path).lead = .none := by
  have hdot : c.render.toList ≠ ['.'] := by
    intro hchars
    have hfield := Component.ofField?_render h
    rw [hchars] at hfield
    cases hfield
  unfold lead
  rw [splitLead_of_not_mem (Component.slash_not_mem_render h) hdot]

theorem isAbsolute_step {c : Component} (h : c.IsStep) :
    (⟨c.render⟩ : Path).isAbsolute = false := by
  unfold isAbsolute
  rw [lead_step h]
  rfl

theorem inner_step {c : Component} (h : c.IsStep) : (⟨c.render⟩ : Path).inner = [c] := by
  rw [← filterMap_fields,
    Text.fields_of_not_mem (Component.slash_not_mem_render h)]
  simp [Component.ofField?_render h]

theorem components_step {c : Component} (h : c.IsStep) : (⟨c.render⟩ : Path).components = [c] := by
  rw [components_eq, lead_step h, inner_step h]
  rfl

theorem components_of_empty {p : Path} (hp : p.text = "") : p.components = [] := by
  rw [show p = ⟨""⟩ from congrArg Path.mk hp]
  rfl

/-- A text whose lead is nothing begins with a step. -/
theorem filterMap_fields_ne_nil {s : List Char} (hs : s ≠ []) (hlead : (splitLead s).1 = .none) :
    (Text.fields '/' s).filterMap Component.ofField? ≠ [] := by
  match s with
  | [] => exact absurd rfl hs
  | [c] =>
    have hslash : c ≠ '/' := by rintro rfl; cases hlead
    have hdot : c ≠ '.' := by rintro rfl; cases hlead
    simp [Text.fields, hslash, Component.ofField?, hdot]
  | c :: d :: more =>
    have hslash : c ≠ '/' := by rintro rfl; cases hlead
    have hdots : ¬(c = '.' ∧ d = '/') := by rintro ⟨rfl, rfl⟩; cases hlead
    by_cases hd : d = '/'
    · have hc : c ≠ '.' := fun hc => hdots ⟨hc, hd⟩
      simp [Text.fields, hslash, hd, Component.ofField?, hc]
    · cases hf : Text.fields '/' more with
      | nil => exact absurd hf (Text.fields_ne_nil _ _)
      | cons first others =>
        by_cases hup : c :: d :: first = ['.', '.']
        · simp [Text.fields, hslash, hd, hf, hup, Component.ofField?]
        · simp [Text.fields, hslash, hd, hf, Component.ofField?]

theorem components_ne_nil {p : Path} (hp : p.text ≠ "") : p.components ≠ [] := by
  have hchars : p.text.toList ≠ [] := fun h => hp (String.toList_eq_nil_iff.1 h)
  rw [components_eq]
  cases hlead : p.lead with
  | root => exact List.cons_ne_nil _ _
  | current => exact List.cons_ne_nil _ _
  | none =>
    rw [← filterMap_fields]
    exact filterMap_fields_ne_nil hchars hlead

/-- One step more at the end of a path is one component more. -/
theorem components_join_step (p : Path) {c : Component} (h : c.IsStep) :
    (p.join ⟨c.render⟩).components = p.components ++ [c] := by
  by_cases hp : p.text = ""
  · rw [join_of_empty hp, components_of_empty hp, components_step h]
    rfl
  · rw [components_join hp (isAbsolute_step h), inner_step h]

/-- The path that goes on from another by steps. -/
def along (p : Path) (steps : List Component) : Path :=
  steps.foldl (fun before step => before.join ⟨step.render⟩) p

theorem ofComponents_eq (steps : List Component) : ofComponents steps = along ⟨""⟩ steps := rfl

theorem along_append (p : Path) (steps more : List Component) :
    p.along (steps ++ more) = (p.along steps).along more := List.foldl_append ..

theorem components_along (p : Path) {steps : List Component} (h : ∀ c ∈ steps, c.IsStep) :
    (p.along steps).components = p.components ++ steps := by
  induction steps generalizing p with
  | nil => exact (List.append_nil _).symm
  | cons c rest ih =>
    obtain ⟨hc, hrest⟩ := List.forall_mem_cons.1 h
    have hstep := ih (p.join ⟨c.render⟩) hrest
    rw [components_join_step p hc, List.append_assoc] at hstep
    exact hstep

/-- The shortest spelling of a list of steps has just these steps. -/
theorem components_ofComponents {steps : List Component} (h : ∀ c ∈ steps, c.IsStep) :
    (ofComponents steps).components = steps := by
  rw [ofComponents_eq, components_along _ h]
  rfl

theorem isAbsolute_of_steps {p : Path} (h : ∀ c ∈ p.components, c.IsStep) :
    p.isAbsolute = false := by
  rw [Bool.eq_false_iff]
  intro habsolute
  refine h .root ?_
  rw [components_eq, isAbsolute_iff.1 habsolute]
  exact List.mem_cons_self

theorem isAbsolute_ofComponents {steps : List Component} (h : ∀ c ∈ steps, c.IsStep) :
    (ofComponents steps).isAbsolute = false :=
  isAbsolute_of_steps (by rwa [components_ofComponents h])

theorem inner_of_isPlain {p : Path} (h : p.IsPlain) : p.inner = p.components := by
  rw [components_eq]
  cases hlead : p.lead with
  | root => exact (h .root (by rw [components_eq, hlead]; exact List.mem_cons_self)).elim
  | current => exact (h .current (by rw [components_eq, hlead]; exact List.mem_cons_self)).elim
  | none => rfl

/-- A path of names adds its names to any path, an empty one too. -/
theorem components_join_plain (p : Path) {q : Path} (hq : q.IsPlain) :
    (p.join q).components = p.components ++ q.components := by
  by_cases hp : p.text = ""
  · rw [join_of_empty hp, components_of_empty hp, List.nil_append]
  · rw [components_join hp (isAbsolute_of_steps hq.isStep), inner_of_isPlain hq]

theorem along_cons (p : Path) (c : Component) (steps : List Component) :
    p.along (c :: steps) = (p.join ⟨c.render⟩).along steps := rfl

theorem ofComponents_cons (c : Component) (steps : List Component) :
    ofComponents (c :: steps) = along ⟨c.render⟩ steps := by
  rw [ofComponents_eq, along_cons, join_of_empty rfl]

theorem render_ne_empty {c : Component} (h : c.IsStep) : c.render ≠ "" := by
  intro hempty
  have hcomponents : [] = [c] := (components_of_empty hempty).symm.trans (components_step h)
  cases hcomponents

/-- Going on by steps is joining the shortest spelling of these steps. -/
theorem join_ofComponents (p : Path) {steps : List Component} (hsteps : steps ≠ [])
    (h : ∀ c ∈ steps, c.IsStep) : p.join (ofComponents steps) = p.along steps := by
  induction steps generalizing p with
  | nil => exact absurd rfl hsteps
  | cons c rest ih =>
    obtain ⟨hc, hrest⟩ := List.forall_mem_cons.1 h
    cases rest with
    | nil => rw [ofComponents_cons, along_cons]; rfl
    | cons d more =>
      have hmore : d :: more ≠ [] := List.cons_ne_nil _ _
      rw [ofComponents_cons, along_cons p c, ← ih _ hmore hrest, ← ih _ hmore hrest,
        join_assoc p (isAbsolute_step hc) (isAbsolute_ofComponents hrest) (render_ne_empty hc)]

theorem glue_step {c : Component} (h : c.IsStep) : (⟨c.render⟩ : Path).glue = "/" := by
  unfold glue
  rw [if_neg]
  simp only [Bool.or_eq_true, not_or]
  refine ⟨by simpa using render_ne_empty h, fun hlast => ?_⟩
  exact Component.slash_not_mem_render h (List.mem_of_getLast? (by simpa using hlast))

/-- The shortest spelling has one stretch for each step. -/
theorem text_ofComponents {steps : List Component} (h : ∀ c ∈ steps, c.IsStep) :
    (ofComponents steps).text.toList =
      Text.joined '/' (steps.map fun c => c.render.toList) := by
  induction steps with
  | nil => rfl
  | cons c rest ih =>
    obtain ⟨hc, hrest⟩ := List.forall_mem_cons.1 h
    cases rest with
    | nil => rw [ofComponents_cons]; rfl
    | cons d more =>
      rw [ofComponents_cons, ← join_ofComponents _ (List.cons_ne_nil _ _) hrest,
        text_join (isAbsolute_ofComponents hrest), glue_step hc, List.map_cons]
      simp only [String.toList_append, ih hrest]
      simp [Text.joined]

theorem lead_along {p : Path} (hp : p.text ≠ "") {steps : List Component}
    (h : ∀ c ∈ steps, c.IsStep) : (p.along steps).lead = p.lead := by
  cases steps with
  | nil => rfl
  | cons c rest =>
    rw [← join_ofComponents p (List.cons_ne_nil _ _) h, lead_join hp (isAbsolute_ofComponents h)]

theorem lead_ofComponents {steps : List Component} (h : ∀ c ∈ steps, c.IsStep) :
    (ofComponents steps).lead = .none := by
  cases steps with
  | nil => rfl
  | cons c rest =>
    obtain ⟨hc, hrest⟩ := List.forall_mem_cons.1 h
    rw [ofComponents_cons, lead_along (p := ⟨c.render⟩) (render_ne_empty hc) hrest,
      lead_step hc]

theorem inner_ofComponents {steps : List Component} (h : ∀ c ∈ steps, c.IsStep) :
    (ofComponents steps).inner = steps := by
  have hcomponents := components_ofComponents h
  rw [components_eq, lead_ofComponents h] at hcomponents
  exact hcomponents

theorem ofComponents_text_ne_empty {steps : List Component} (hsteps : steps ≠ [])
    (h : ∀ c ∈ steps, c.IsStep) : (ofComponents steps).text ≠ "" := by
  intro hempty
  have hnil := components_of_empty hempty
  rw [components_ofComponents h] at hnil
  exact hsteps hnil

theorem fields_ofComponents {steps : List Component} (hsteps : steps ≠ [])
    (h : ∀ c ∈ steps, c.IsStep) :
    Text.fields '/' (ofComponents steps).text.toList = steps.map fun c => c.render.toList := by
  rw [text_ofComponents h, Text.fields_joined]
  · simpa using hsteps
  · intro field hfield
    obtain ⟨c, hc, rfl⟩ := List.mem_map.1 hfield
    exact Component.slash_not_mem_render (h c hc)

theorem body_of_lead {p : Path} (h : p.lead = .none) :
    p.body = Text.fields '/' p.text.toList := by
  unfold body
  unfold lead at h
  generalize p.text.toList = s at h
  unfold splitLead at h ⊢
  split at h
  · cases h
  · cases h
  · cases h
  · rfl

theorem body_ofComponents {steps : List Component} (hsteps : steps ≠ [])
    (h : ∀ c ∈ steps, c.IsStep) :
    (ofComponents steps).body = steps.map fun c => c.render.toList := by
  rw [body_of_lead (lead_ofComponents h), fields_ofComponents hsteps h]

/-- The stretches of a path that goes on from another by steps. -/
theorem exists_body_along {p : Path} (hp : p.text ≠ "") {steps : List Component}
    (hsteps : steps ≠ []) (h : ∀ c ∈ steps, c.IsStep) :
    ∃ before, (p.along steps).body = before ++ steps.map (fun c => c.render.toList) ∧
      before.filterMap Component.ofField? = p.inner := by
  obtain ⟨before, hbody, hbefore⟩ := exists_body_join hp (isAbsolute_ofComponents h)
  refine ⟨before, ?_, hbefore⟩
  rw [← join_ofComponents p hsteps h, hbody, fields_ofComponents hsteps h]

end Path

end PackagePlan
