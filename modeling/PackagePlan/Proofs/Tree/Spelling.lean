/-
  The spelling of a path that leads to a directory. A lookup passes over empty steps and `.` as
  long as it stands in a directory, so they make no difference where it ends in one
  (`arrives_follow_filter`). Whether a path leads to a directory is therefore settled by what it
  starts with, by its steps, and by its length, which has a limit (`isDirectory_iff`).
-/
import PackagePlan.Proofs.Path.Components
import PackagePlan.Tree.Lookup

namespace PackagePlan

open PackagePlan.Path

namespace Tree

/-! ## Steps that move -/

/-- Whether a step of a lookup leaves the directory it is taken in. -/
def moves (step : String) : Bool := !(step.isEmpty || step == ".")

theorem moves_ofList (field : List Char) :
    moves (String.ofList field) = (Component.ofField? field).isSome := by
  unfold moves Component.ofField?
  split
  · rfl
  · rfl
  · rfl
  · next hempty hdot _ =>
    have hstay : ¬(String.ofList field = "" ∨ String.ofList field = ".") := by
      rintro (h | h)
      · exact hempty (by simpa using congrArg String.toList h)
      · exact hdot (by simpa using congrArg String.toList h)
    simpa using hstay

/-- The steps of a lookup that move are the steps of the path. -/
theorem filter_moves_steps (p : Path) :
    (steps p.text).filter moves = p.inner.map Component.render := by
  rw [← filterMap_fields]
  unfold steps
  generalize Text.fields '/' p.text.toList = fields
  induction fields with
  | nil => rfl
  | cons field rest ih =>
    rw [List.map_cons, List.filter_cons, moves_ofList, ih]
    cases hstep : Component.ofField? field with
    | none => rw [List.filterMap_cons_none hstep]; rfl
    | some step =>
      rw [List.filterMap_cons_some hstep, List.map_cons, Component.render_of_ofField? hstep]
      rfl

/-! ## Lookups that end in a directory -/

variable {root : Entry} {jump : Trail → List String → Except FileFault Spot} {trail last : Trail}
  {step : String} {names : List String}

/-- The names lead to the end of a trail, and a directory stands there. -/
def Arrives (root : Entry) (go : Trail → List String → Except FileFault Spot)
    (trail : Trail) (names : List String) (last : Trail) : Prop :=
  go trail names = .ok (.occupied last) ∧ (root.atEnd last).isDirectory = true

theorem isDirectory_of_arrives (h : Arrives root (followUpTo root jump) trail names last) :
    (root.atEnd trail).isDirectory = true := by
  obtain ⟨hgo, hlast⟩ := h
  cases names with
  | nil =>
    cases hgo
    exact hlast
  | cons step rest =>
    rw [followUpTo] at hgo
    split at hgo
    · cases hgo
    · next hhere => simpa using hhere

theorem followUpTo_of_stays (hhere : (root.atEnd trail).isDirectory = true)
    (hstep : moves step = false) (rest : List String) :
    followUpTo root jump trail (step :: rest) = followUpTo root jump trail rest := by
  have hstays : (step.isEmpty || step == ".") = true := by rwa [← Bool.not_eq_false']
  rw [followUpTo, hhere, hstays]
  rfl

/-- Where a step that moves leads to, whatever comes after it: to another trail, through a link, or
to no entry. -/
theorem followUpTo_of_moves (hhere : (root.atEnd trail).isDirectory = true)
    (hstep : moves step = true) :
    (∃ next, ∀ rest, followUpTo root jump trail (step :: rest) = followUpTo root jump next rest) ∨
    (∃ next text, ∀ rest,
      followUpTo root jump trail (step :: rest) = jump next (steps text ++ rest)) ∨
    ∀ rest last, followUpTo root jump trail (step :: rest) ≠ .ok (.occupied last) := by
  have hmoves : (step.isEmpty || step == ".") = false := by simpa [moves] using hstep
  simp only [followUpTo, hhere, hmoves, Bool.not_true, Bool.false_eq_true, if_false]
  split
  · exact .inl ⟨trail.tail, fun _ => rfl⟩
  split
  · exact .inr (.inr fun _ _ h => by cases h)
  split
  · refine .inr (.inr fun rest last h => ?_)
    split at h <;> cases h
  · next target _ => exact .inr (.inl ⟨origin trail target, target, fun _ => rfl⟩)
  · next entry _ _ => exact .inl ⟨(step, entry) :: trail, fun _ => rfl⟩

/-- Where a lookup ends in a directory, the steps that do not move make no difference, if they make
none to the lookups behind links. -/
theorem arrives_followUpTo_filter
    (hjump : ∀ {trail names}, Arrives root jump trail names last ↔
      Arrives root jump trail (names.filter moves) last) :
    Arrives root (followUpTo root jump) trail names last ↔
      Arrives root (followUpTo root jump) trail (names.filter moves) last := by
  induction names generalizing trail with
  | nil => rfl
  | cons step rest ih =>
    by_cases hhere : (root.atEnd trail).isDirectory = true
    · cases hstep : moves step with
      | false =>
        rw [List.filter_cons_of_neg (by simp [hstep]), ← ih]
        unfold Arrives
        rw [followUpTo_of_stays hhere hstep]
      | true =>
        rw [List.filter_cons_of_pos hstep]
        rcases @followUpTo_of_moves root jump trail step hhere hstep with
          ⟨next, hnext⟩ | ⟨next, text, hnext⟩ | hnone
        · have hrest : Arrives root (followUpTo root jump) next rest last ↔ _ := ih
          unfold Arrives at hrest ⊢
          rwa [hnext, hnext]
        · -- Behind the link the steps of its target come first, and they are the same ones.
          have hsame : (steps text ++ rest.filter moves).filter moves =
              (steps text ++ rest).filter moves := by simp
          have hlink : Arrives root jump next (steps text ++ rest) last ↔
              Arrives root jump next (steps text ++ rest.filter moves) last := by
            rw [hjump, @hjump next (steps text ++ rest.filter moves), hsame]
          unfold Arrives at hlink ⊢
          rwa [hnext, hnext]
        · exact ⟨fun h => absurd h.1 (hnone _ _), fun h => absurd h.1 (hnone _ _)⟩
    · exact ⟨fun h => absurd (isDirectory_of_arrives h) hhere,
        fun h => absurd (isDirectory_of_arrives h) hhere⟩

/-- Where a lookup ends in a directory, only the steps that move count. -/
theorem arrives_follow_filter {links : Nat} :
    Arrives root (follow root links) trail names last ↔
      Arrives root (follow root links) trail (names.filter moves) last := by
  induction links generalizing trail names with
  | zero => exact arrives_followUpTo_filter ⟨fun h => (nomatch h.1), fun h => (nomatch h.1)⟩
  | succ links ih => exact arrives_followUpTo_filter ih

/-! ## Directories -/

variable {tree : Tree} {p q : Path}

theorem refusal?_eq_none_iff : refusal? p = none ↔
    (∀ step ∈ p.inner, '\x00' ∉ step.render.toList) ∧ p.text ≠ "" ∧
      p.text.utf8ByteSize ≤ pathLimit := by
  have hnul : p.text.toList.contains '\x00' = false ↔
      ∀ step ∈ p.inner, '\x00' ∉ step.render.toList := by
    rw [Bool.eq_false_iff, ne_eq, List.contains_iff_mem, p.mem_text_iff (by decide) (by decide)]
    simp
  rw [← hnul]
  unfold refusal?
  cases p.text.toList.contains '\x00' with
  | true => simp
  | false =>
    by_cases hempty : p.text = ""
    · simp [hempty]
    · rw [if_neg Bool.false_ne_true, if_neg (by simpa using hempty), ite_eq_right_iff]
      simp [hempty]

/-- Where a path starts, by its lead. -/
def start (tree : Tree) (absolute : Bool) : Trail :=
  if absolute then [] else tree.root.trailTo [] tree.workingDirectory

/-- A path leads to a directory if its steps do, from where it starts, and its text is not empty and
not too long. -/
theorem isDirectory_iff : tree.isDirectory p = true ↔
    ((∀ step ∈ p.inner, '\x00' ∉ step.render.toList) ∧ p.text ≠ "" ∧
      p.text.utf8ByteSize ≤ pathLimit) ∧
    ∃ last, Arrives tree.root (follow tree.root linkLimit) (tree.start p.isAbsolute)
      (p.inner.map Component.render) last := by
  rw [← refusal?_eq_none_iff]
  simp only [← filter_moves_steps, ← arrives_follow_filter]
  unfold isDirectory find trail spot
  cases hrefusal : refusal? p with
  | some fault => simp [Except.map]
  | none =>
    have hstart : origin (tree.root.trailTo [] tree.workingDirectory) p.text =
        tree.start p.isAbsolute := by
      unfold origin start
      rw [head?_text]
    unfold followFrom Arrives
    dsimp only
    rw [hstart]
    cases follow tree.root linkLimit (tree.start p.isAbsolute) (steps p.text) with
    | error fault => simp [Except.map]
    | ok place =>
      cases place with
      | occupied trail => simp [Except.map]
      | vacant trail name => simp [Except.map]

/-- A directory is found under every spelling of its path that is not too long. -/
theorem isDirectory_congr (hlead : p.isAbsolute = q.isAbsolute) (hinner : p.inner = q.inner)
    (hq : q.text ≠ "") (hfits : q.text.utf8ByteSize ≤ pathLimit)
    (h : tree.isDirectory p = true) : tree.isDirectory q = true := by
  rw [isDirectory_iff] at h ⊢
  rw [hlead, hinner] at h
  exact ⟨⟨h.1.1, hq, hfits⟩, h.2⟩

end Tree

end PackagePlan
