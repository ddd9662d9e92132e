/-
  What a walk finds. `Reaches` says, without the walk, which files are come to from an entry by
  real directories only; a walk that reports no fault reports just these (`ok_mem_filesUnder_iff`).
  The entry a path leads to is never a link (`isLink_of_find`), so only links further down count
  as such.
-/
import PackagePlan.Proofs.Outcome
import PackagePlan.Proofs.Path.Components
import PackagePlan.Tree.Walk

namespace PackagePlan

namespace Entry

/-- Whether the entry is a symbolic link. -/
def isLink : Entry → Bool
  | link _ => true
  | _ => false

theorem lookup_of_mem {members : Members} (h : areSound members = true) {name : String}
    {entry : Entry} (hmem : (name, entry) ∈ members) : members.lookup name = some entry := by
  obtain ⟨before, after, rfl⟩ := List.append_of_mem hmem
  refine List.lookup_eq_some_iff.2 ⟨before, after, rfl, fun other hother => ?_⟩
  have hbelow := (List.pairwise_append.1 (areSound_iff.1 h).1).2.2 other hother (name, entry)
    List.mem_cons_self
  simp only [bne_iff_ne, ne_eq]
  rintro rfl
  have hself : compare other.1 other.1 = .eq := Std.ReflCmp.compare_self
  rw [hself] at hbelow
  cases hbelow

end Entry

/-- A way down that meets no symbolic link. -/
def Trail.IsFirm (root : Entry) (trail : Trail) : Prop :=
  root.isLink = false ∧ ∀ step ∈ trail, step.2.isLink = false

namespace Tree

variable {tree : Tree}

theorem isLink_of_isDirectory {entry : Entry} (h : entry.isDirectory = true) :
    entry.isLink = false := by
  cases entry <;> first | rfl | cases h

/-! ## Where a path leads -/

/-- Only the end of the way to the working directory may be a link. -/
theorem isFirm_trailTo {root : Entry} {trail : Trail}
    (h : (root.atEnd trail).isDirectory = true → trail.IsFirm root) (names : Place)
    (hend : (root.atEnd (root.trailTo trail names)).isDirectory = true) :
    (root.trailTo trail names).IsFirm root := by
  induction names generalizing trail with
  | nil => exact h hend
  | cons name rest ih =>
    unfold Entry.trailTo at hend ⊢
    split
    · next next hnext =>
      rw [hnext] at hend
      refine ih (fun hdirectory => ?_) hend
      have hhere : (root.atEnd trail).isDirectory = true := by
        cases hentry : root.atEnd trail with
        | directory _ => rfl
        | _ => rw [hentry] at hnext; cases hnext
      obtain ⟨hroot, htrail⟩ := h hhere
      exact ⟨hroot, List.forall_mem_cons.2 ⟨isLink_of_isDirectory hdirectory, htrail⟩⟩
    · next hnone =>
      rw [hnone] at hend
      exact h hend

theorem isFirm_followUpTo {root : Entry} {jump : Trail → List String → Except FileFault Spot}
    {trail last : Trail} {names : List String}
    (hjump : ∀ {trail names}, trail.IsFirm root → jump trail names = .ok (.occupied last) →
      last.IsFirm root)
    (htrail : trail.IsFirm root)
    (h : followUpTo root jump trail names = .ok (.occupied last)) : last.IsFirm root := by
  fun_induction followUpTo root jump trail names with
  | case1 =>
    cases h
    exact htrail
  | case2 => cases h
  | case3 trail step rest _ _ ih => exact ih htrail h
  | case4 trail step rest _ _ _ ih =>
    exact ih ⟨htrail.1, fun up hup => htrail.2 up (List.mem_of_mem_tail hup)⟩ h
  | case5 => cases h
  | case6 => cases h
  | case7 => cases h
  | case8 trail step rest _ _ _ _ target _ =>
    refine hjump ⟨htrail.1, ?_⟩ h
    unfold origin
    split
    · exact List.forall_mem_nil _
    · exact htrail.2
  | case9 trail step rest _ _ _ _ entry hplain _ ih =>
    refine ih ⟨htrail.1, List.forall_mem_cons.2 ⟨?_, htrail.2⟩⟩ h
    cases entry with
    | link target => exact absurd rfl (hplain target)
    | _ => rfl

theorem isFirm_follow {root : Entry} {links : Nat} {trail last : Trail} {names : List String}
    (htrail : trail.IsFirm root) (h : follow root links trail names = .ok (.occupied last)) :
    last.IsFirm root := by
  induction links generalizing trail names with
  | zero => exact isFirm_followUpTo (fun _ hjump => by cases hjump) htrail h
  | succ links ih => exact isFirm_followUpTo ih htrail h

theorem isFirm_followFrom {path : Path} {last : Trail}
    (h : tree.followFrom path (steps path.text) = .ok (.occupied last)) :
    last.IsFirm tree.root := by
  have hfirst : tree.root.isDirectory = true → Trail.IsFirm tree.root [] := fun hroot =>
    ⟨isLink_of_isDirectory hroot, List.forall_mem_nil _⟩
  unfold followFrom at h
  dsimp only at h
  generalize horigin : origin (tree.root.trailTo [] tree.workingDirectory) path.text = start at h
  have hdirectory : (tree.root.atEnd start).isDirectory = true := by
    cases hsteps : steps path.text with
    | nil => exact absurd (List.map_eq_nil_iff.1 hsteps) (Text.fields_ne_nil _ _)
    | cons step rest =>
      rw [hsteps, linkLimit, follow, followUpTo] at h
      split at h
      · cases h
      · next hhere => simpa using hhere
  refine isFirm_follow ?_ h
  subst horigin
  unfold origin at hdirectory ⊢
  split
  · next hslash =>
    rw [if_pos hslash] at hdirectory
    exact hfirst hdirectory
  · next hslash =>
    rw [if_neg hslash] at hdirectory
    exact @isFirm_trailTo tree.root [] hfirst _ hdirectory

theorem isFirm_of_trail {path : Path} {last : Trail} (h : tree.trail path = .ok last) :
    last.IsFirm tree.root := by
  unfold trail at h
  split at h
  · next hspot =>
    cases h
    unfold spot at hspot
    split at hspot
    · cases hspot
    · exact isFirm_followFrom hspot
  · cases h
  · cases h

/-- A path never leads to a symbolic link: links are followed, the last one too. -/
theorem isLink_of_find {path : Path} {entry : Entry} (h : tree.find path = .ok entry) :
    entry.isLink = false := by
  obtain ⟨last, hlast, rfl⟩ := Outcome.map_eq_ok.1 h
  obtain ⟨hroot, hsteps⟩ := isFirm_of_trail hlast
  cases last with
  | nil => exact hroot
  | cons step above => exact hsteps step List.mem_cons_self

/-! ## What a walk reports -/

/-- The files that are come to from an entry at a path by real directories only: files, and
symbolic links that lead to files. -/
inductive Reaches (tree : Tree) : Path → Entry → Path → Prop
  | file {path : Path} {content : String} : Reaches tree path (.file content) path
  | link {path : Path} {target : String} (h : tree.isFile path = true) :
      Reaches tree path (.link target) path
  | member {path found : Path} {members : Members} {name : String} {next : Entry}
      (hnext : (Entry.directory members).member? name = some next)
      (h : Reaches tree (path.join ⟨name⟩) next found) :
      Reaches tree path (.directory members) found

/-- The files under a path, which may itself lead through symbolic links. -/
def Holds (tree : Tree) (start found : Path) : Prop :=
  ∃ entry, tree.find start = .ok entry ∧ tree.Reaches start entry found

theorem mem_reportsOfAll {path : Path} {members : Members} {report : Except WalkFault Path} :
    report ∈ tree.reportsOfAll path members ↔
      ∃ member ∈ members, report ∈ tree.reports (path.join ⟨member.1⟩) member.2 := by
  induction members with
  | nil => simp [reportsOfAll]
  | cons first rest ih =>
    rw [reportsOfAll, List.mem_append, ih]
    simp

mutual

theorem reaches_of_mem_reports {path found : Path} :
    ∀ {entry : Entry}, entry.isSound = true → .ok found ∈ tree.reports path entry →
      tree.Reaches path entry found
  | .file _, _, h => by
    rw [reports, List.mem_singleton] at h
    cases h
    exact .file
  | .link _, _, h => by
    rw [reports] at h
    split at h
    · next hfile =>
      cases List.mem_singleton.1 h
      exact .link hfile
    · cases h
  | .directory members, hsound, h => by
    rw [reports] at h
    split at h
    · obtain ⟨name, next, hmem, hreach⟩ := reaches_of_mem_reportsOfAll hsound h
      exact .member (Entry.lookup_of_mem hsound hmem) hreach
    · cases List.mem_singleton.1 h

theorem reaches_of_mem_reportsOfAll {path found : Path} :
    ∀ {members : Members}, Entry.areSound members = true →
      .ok found ∈ tree.reportsOfAll path members →
        ∃ name next, (name, next) ∈ members ∧ tree.Reaches (path.join ⟨name⟩) next found
  | [], _, h => by cases h
  | (name, next) :: rest, hsound, h => by
    have hparts := Entry.areSound_iff.1 hsound
    rw [reportsOfAll, List.mem_append] at h
    rcases h with h | h
    · have hnext := (hparts.2 _ List.mem_cons_self).2
      exact ⟨name, next, List.mem_cons_self, reaches_of_mem_reports hnext h⟩
    · have hrest : Entry.areSound rest = true := Entry.areSound_iff.2
        ⟨(List.pairwise_cons.1 hparts.1).2, (List.forall_mem_cons.1 hparts.2).2⟩
      obtain ⟨other, entry, hmem, hreach⟩ := reaches_of_mem_reportsOfAll hrest h
      exact ⟨other, entry, List.mem_cons_of_mem _ hmem, hreach⟩

end

theorem mem_reports_of_reaches {path found : Path} {entry : Entry}
    (h : tree.Reaches path entry found)
    (hread : ∀ fault, .error fault ∉ tree.reports path entry) :
    .ok found ∈ tree.reports path entry := by
  induction h with
  | file => exact List.mem_cons_self
  | link hfile =>
    rw [reports, if_pos hfile]
    exact List.mem_cons_self
  | @member path found members name next hnext _ ih =>
    have hmem : (name, next) ∈ members := by
      obtain ⟨before, after, rfl, -⟩ := List.lookup_eq_some_iff.1 hnext
      simp
    rw [reports] at hread ⊢
    split
    · next hfind =>
      rw [hfind] at hread
      refine mem_reportsOfAll.2 ⟨(name, next), hmem, ih fun fault hfault => ?_⟩
      exact hread fault (mem_reportsOfAll.2 ⟨(name, next), hmem, hfault⟩)
    · next fault hfind =>
      rw [hfind] at hread
      exact absurd List.mem_cons_self (hread ⟨path, fault⟩)

theorem isSound_of_find {path : Path} {entry : Entry} (h : tree.find path = .ok entry) :
    entry.isSound = true := by
  obtain ⟨last, hlast, rfl⟩ := Outcome.map_eq_ok.1 h
  unfold trail at hlast
  split at hlast
  · next hspot =>
    cases hlast
    exact Entry.isSound_atEnd tree.sound (isSound_spot hspot)
  · cases hlast
  · cases hlast

/-- A walk reports what it reports of the entry it starts at. -/
theorem filesUnder_eq {start : Path} {entry : Entry} (h : tree.find start = .ok entry) :
    tree.filesUnder start = tree.reports start entry := by
  have hlink := isLink_of_find h
  unfold filesUnder
  rw [h]
  cases entry with
  | file _ => rw [reports]
  | link _ => cases hlink
  | directory _ => rw [reports, h]

/-- A walk finds only files that are reached. -/
theorem holds_of_mem_filesUnder {start found : Path} (h : .ok found ∈ tree.filesUnder start) :
    tree.Holds start found := by
  cases hfind : tree.find start with
  | error fault =>
    rw [filesUnder, hfind] at h
    cases h
  | ok entry =>
    rw [filesUnder_eq hfind] at h
    exact ⟨entry, hfind, reaches_of_mem_reports (isSound_of_find hfind) h⟩

/-- A walk that reads every directory finds just the files that are reached. -/
theorem ok_mem_filesUnder_iff {start found : Path}
    (hread : ∀ fault, .error fault ∉ tree.filesUnder start) :
    .ok found ∈ tree.filesUnder start ↔ tree.Holds start found := by
  refine ⟨holds_of_mem_filesUnder, ?_⟩
  rintro ⟨entry, hfind, hreach⟩
  rw [filesUnder_eq hfind] at hread ⊢
  exact mem_reports_of_reaches hreach hread

/-- A file that is reached lies below where the walk starts. -/
theorem Reaches.exists_along {path found : Path} {entry : Entry} (hsound : entry.isSound = true)
    (h : tree.Reaches path entry found) :
    ∃ steps, (∀ c ∈ steps, Component.IsName c) ∧ found = path.along steps := by
  induction h with
  | file => exact ⟨[], List.forall_mem_nil _, rfl⟩
  | link => exact ⟨[], List.forall_mem_nil _, rfl⟩
  | @member path found members name next hnext _ ih =>
    obtain ⟨hname, hsound⟩ := Entry.sound_of_member? hsound hnext
    obtain ⟨steps, hsteps, rfl⟩ := ih hsound
    exact ⟨.name name :: steps, List.forall_mem_cons.2 ⟨hname, hsteps⟩, rfl⟩

theorem Holds.exists_along {start found : Path} (h : tree.Holds start found) :
    ∃ steps, (∀ c ∈ steps, Component.IsName c) ∧ found = start.along steps := by
  obtain ⟨entry, hfind, hreach⟩ := h
  exact hreach.exists_along (isSound_of_find hfind)

/-- A file that is reached from a directory is not the directory itself. -/
theorem Holds.exists_along_of_isDirectory {start found : Path} (h : tree.Holds start found)
    (hstart : tree.isDirectory start = true) :
    ∃ steps, steps ≠ [] ∧ (∀ c ∈ steps, Component.IsName c) ∧ found = start.along steps := by
  obtain ⟨entry, hfind, hreach⟩ := h
  have hsound := isSound_of_find hfind
  unfold isDirectory at hstart
  rw [hfind] at hstart
  cases hreach with
  | file => cases hstart
  | link => cases hstart
  | @member _ _ members name next hnext hreach =>
    obtain ⟨hname, hsound⟩ := Entry.sound_of_member? hsound hnext
    obtain ⟨steps, hsteps, rfl⟩ := hreach.exists_along hsound
    exact ⟨.name name :: steps, List.cons_ne_nil _ _, List.forall_mem_cons.2 ⟨hname, hsteps⟩, rfl⟩

end Tree

end PackagePlan
