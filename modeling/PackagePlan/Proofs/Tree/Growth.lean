/-
  Writing a file that was not there leaves everything else as it was (`grows_of_write`). A path that
  leads to another place exists afterwards exactly if it existed before (`exists?_of_grows`), and a
  file that could be read is read with the same content (`read_of_grows`), through whatever links
  the path goes. The directories above the new file change, so the two lookups are kept side by
  side by the places they have come to and not by the entries there.
-/
import PackagePlan.Proofs.Outcome
import PackagePlan.Tree.Edit

namespace PackagePlan

theorem Catalog.lookup_cons {α : Type} {entry : String × α} {rest : List (String × α)}
    {name : String} :
    (entry :: rest).lookup name = if name = entry.1 then some entry.2 else rest.lookup name := by
  rw [List.lookup_cons]
  by_cases h : name = entry.1
  · simp [h]
  · rw [beq_false_of_ne h, if_neg h]

theorem Catalog.lookup_place {α : Type} {name other : String} {value : α}
    {entries : List (String × α)} :
    (Catalog.place name value entries).lookup other =
      if other = name then some value else entries.lookup other := by
  induction entries with
  | nil => rw [Catalog.place, lookup_cons]
  | cons entry rest ih =>
    rw [Catalog.place]
    split
    · rw [lookup_cons]
    · next heq =>
      have hname : name = entry.1 := Std.LawfulEqCmp.eq_of_compare heq
      rw [lookup_cons, lookup_cons, hname]
      split <;> rfl
    · next hgt =>
      have hname : name ≠ entry.1 := by
        rintro rfl
        have hself : compare entry.1 entry.1 = .eq := Std.ReflCmp.compare_self
        rw [hself] at hgt
        cases hgt
      rw [lookup_cons, lookup_cons, ih]
      by_cases h : other = entry.1
      · rw [if_pos h, if_pos h, if_neg (h ▸ Ne.symm hname)]
      · rw [if_neg h, if_neg h]

namespace Entry

/-! ## One file more -/

/-- The two entries are read alike: one content, one target, or both are directories. -/
inductive Alike : Entry → Entry → Prop
  | file (content : String) : Alike (.file content) (.file content)
  | link (target : String) : Alike (.link target) (.link target)
  | directory (members others : Members) : Alike (.directory members) (.directory others)

theorem Alike.refl (entry : Entry) : Alike entry entry := by
  cases entry with
  | file content => exact .file content
  | link target => exact .link target
  | directory members => exact .directory members members

theorem Alike.isDirectory_eq {old new : Entry} (h : Alike old new) :
    new.isDirectory = old.isDirectory := by
  cases h <;> rfl

/-- The new entry holds what the old one holds, and a file at one place where the old one holds
    nothing. -/
structure Gains (old new : Entry) (place : Place) : Prop where
  keeps : ∀ {site : Place} {entry : Entry}, old.find? site = some entry →
    ∃ other, new.find? site = some other ∧ Alike entry other
  only : ∀ {site : Place} {other : Entry}, old.find? site = none → new.find? site = some other →
    site = place ∧ ∃ content, other = .file content

theorem find?_cons {entry : Entry} {name : String} {rest : Place} :
    entry.find? (name :: rest) = (entry.member? name).bind fun next => next.find? rest := by
  rw [find?]
  cases entry.member? name <;> rfl

theorem find?_concat {entry : Entry} {place : Place} {name : String} :
    entry.find? (place ++ [name]) = (entry.find? place).bind fun last => last.member? name := by
  induction place generalizing entry with
  | nil =>
    rw [List.nil_append, find?_cons]
    show _ = entry.member? name
    cases entry.member? name <;> rfl
  | cons first rest ih =>
    rw [List.cons_append, find?_cons, find?_cons]
    cases entry.member? first with
    | none => rfl
    | some next => exact ih

theorem find?_file {content : String} {place : Place} {entry : Entry}
    (h : (Entry.file content).find? place = some entry) :
    place = [] ∧ entry = .file content := by
  cases place with
  | nil => exact ⟨rfl, (Option.some.inj h).symm⟩
  | cons name rest => cases h

theorem Gains.refl (entry : Entry) (place : Place) : entry.Gains entry place where
  keeps {_ found} h := ⟨found, h, .refl found⟩
  only hnone hsome := by rw [hnone] at hsome; cases hsome

/-- What a directory gains when something new is put under a name is what is gained there. -/
theorem gains_place {members : Members} {name : String} {found : Entry} {place : Place}
    (hkeeps : ∀ {rest : Place} {entry : Entry},
      (members.lookup name).bind (fun next => next.find? rest) = some entry →
        ∃ other, found.find? rest = some other ∧ Alike entry other)
    (honly : ∀ {rest : Place} {other : Entry},
      (members.lookup name).bind (fun next => next.find? rest) = none →
        found.find? rest = some other → rest = place ∧ ∃ content, other = .file content) :
    (Entry.directory members).Gains (.directory (Catalog.place name found members))
      (name :: place) := by
  constructor
  · intro site entry h
    cases site with
    | nil =>
      cases h
      exact ⟨_, rfl, .directory _ _⟩
    | cons first rest =>
      rw [find?_cons, member?] at h ⊢
      rw [Catalog.lookup_place]
      by_cases heq : first = name
      · rw [if_pos heq]
        exact hkeeps (heq ▸ h)
      · rw [if_neg heq]
        exact ⟨entry, h, .refl entry⟩
  · intro site other hnone hsome
    cases site with
    | nil => cases hnone
    | cons first rest =>
      rw [find?_cons, member?] at hnone hsome
      rw [Catalog.lookup_place] at hsome
      by_cases heq : first = name
      · rw [if_pos heq] at hsome
        obtain ⟨rfl, hfile⟩ := honly (heq ▸ hnone) hsome
        exact ⟨by rw [heq], hfile⟩
      · rw [if_neg heq, hnone] at hsome
        cases hsome

/-- A file that is put under a free name of a directory is all that is gained. -/
theorem gains_alter {root : Entry} {place : Place} {members : Members} {name content : String}
    (hplace : root.find? place = some (.directory members)) (hfree : members.lookup name = none) :
    root.Gains (root.alter (Catalog.place name (.file content)) place) (place ++ [name]) := by
  induction place generalizing root with
  | nil =>
    cases hplace
    refine gains_place (fun h => ?_) fun _ hsome => ?_
    · rw [hfree] at h
      cases h
    · obtain ⟨rfl, rfl⟩ := find?_file hsome
      exact ⟨rfl, content, rfl⟩
  | cons step above ih =>
    cases root with
    | file _ => cases hplace
    | link _ => cases hplace
    | directory others =>
      rw [find?_cons, member?] at hplace
      obtain ⟨next, hnext, hplace⟩ := Option.bind_eq_some_iff.1 hplace
      rw [alter, hnext]
      refine gains_place (fun h => ?_) fun hnone hsome => ?_
      · rw [hnext] at h
        exact (ih hplace).keeps h
      · rw [hnext] at hnone
        exact (ih hplace).only hnone hsome

end Entry

/-! ## Two lookups side by side -/

/-- Two ways down by the same names, each in its own tree. -/
inductive Trail.Beside (old new : Entry) : Trail → Trail → Prop
  | top : Beside old new [] []
  | down {trail other : Trail} {name : String} {entry found : Entry}
      (h : Beside old new trail other) (hold : (old.atEnd trail).member? name = some entry)
      (hnew : (new.atEnd other).member? name = some found) :
      Beside old new ((name, entry) :: trail) ((name, found) :: other)

namespace Trail.Beside

variable {old new : Entry} {trail other : Trail}

theorem tail (h : Beside old new trail other) : Beside old new trail.tail other.tail := by
  cases h with
  | top => exact .top
  | down h _ _ => exact h

theorem origin (h : Beside old new trail other) (text : String) :
    Beside old new (Tree.origin trail text) (Tree.origin other text) := by
  unfold Tree.origin
  split
  · exact .top
  · exact h

theorem place_cons {name : String} {entry : Entry} :
    Trail.place ((name, entry) :: trail) = trail.place ++ [name] := by
  unfold Trail.place
  rw [List.map_cons, List.reverse_cons]

theorem find?_place (h : Beside old new trail other) :
    old.find? trail.place = some (old.atEnd trail) ∧
      new.find? trail.place = some (new.atEnd other) := by
  induction h with
  | top => exact ⟨rfl, rfl⟩
  | down _ hold hnew ih =>
    rw [place_cons, Entry.find?_concat, Entry.find?_concat, ih.1, ih.2]
    exact ⟨hold, hnew⟩

variable {place : Place} {name : String}

theorem alike (h : Beside old new trail other) (hgains : old.Gains new place) :
    Entry.Alike (old.atEnd trail) (new.atEnd other) := by
  obtain ⟨hold, hnew⟩ := h.find?_place
  obtain ⟨found, hfound, halike⟩ := hgains.keeps hold
  obtain rfl : new.atEnd other = found := Option.some.inj (hnew.symm.trans hfound)
  exact halike

theorem member? (h : Beside old new trail other) {entry : Entry} (hgains : old.Gains new place)
    (hentry : (old.atEnd trail).member? name = some entry) :
    ∃ found, (new.atEnd other).member? name = some found ∧ Entry.Alike entry found := by
  obtain ⟨hold, hnew⟩ := h.find?_place
  have hfind : old.find? (trail.place ++ [name]) = some entry := by
    rw [Entry.find?_concat, hold]
    exact hentry
  obtain ⟨found, hfound, halike⟩ := hgains.keeps hfind
  rw [Entry.find?_concat, hnew] at hfound
  exact ⟨found, hfound, halike⟩

/-- A name that is free in the old tree is free in the new one, unless it is that of the file. -/
theorem free (h : Beside old new trail other) (hgains : old.Gains new place)
    (hfree : (old.atEnd trail).member? name = none) :
    (new.atEnd other).member? name = none ∨
      trail.place ++ [name] = place ∧
        ∃ content, (new.atEnd other).member? name = some (.file content) := by
  obtain ⟨hold, hnew⟩ := h.find?_place
  cases hfound : (new.atEnd other).member? name with
  | none => exact .inl rfl
  | some found =>
    have hnone : old.find? (trail.place ++ [name]) = none := by
      rw [Entry.find?_concat, hold]
      exact hfree
    have hsome : new.find? (trail.place ++ [name]) = some found := by
      rw [Entry.find?_concat, hnew]
      exact hfound
    obtain ⟨hplace, content, rfl⟩ := hgains.only hnone hsome
    exact .inr ⟨hplace, content, rfl⟩

/-- Names that lead somewhere in the old tree lead there in the new one. -/
theorem trailTo (h : Beside old new trail other) (hgains : old.Gains new place) {names : Place}
    (hnames : ((old.atEnd trail).find? names).isSome = true) :
    Beside old new (old.trailTo trail names) (new.trailTo other names) := by
  induction names generalizing trail other with
  | nil => exact h
  | cons name rest ih =>
    rw [Entry.find?_cons] at hnames
    cases hentry : (old.atEnd trail).member? name with
    | none => rw [hentry] at hnames; cases hnames
    | some entry =>
      obtain ⟨found, hfound, -⟩ := h.member? hgains hentry
      rw [hentry] at hnames
      rw [Entry.trailTo, Entry.trailTo, hentry, hfound]
      exact ih (h.down hentry hfound) hnames

end Trail.Beside

/-- Where a path leads in a tree, and where it leads with the file at `place`. A refusal may turn
    into another one. -/
inductive Spot.Agrees (old new : Entry) (place : Place) :
    Except FileFault Spot → Except FileFault Spot → Prop
  | occupied {trail other : Trail} (h : trail.Beside old new other) :
      Agrees old new place (.ok (.occupied trail)) (.ok (.occupied other))
  | vacant {trail other : Trail} {name : String} (h : trail.Beside old new other)
      (hdirectory : (old.atEnd trail).isDirectory = true)
      (hfree : (old.atEnd trail).member? name = none) :
      Agrees old new place (.ok (.vacant trail name)) (.ok (.vacant other name))
  | filled {trail : Trail} {name : String} {result : Except FileFault Spot}
      (h : trail.place ++ [name] = place) : Agrees old new place (.ok (.vacant trail name)) result
  | error {fault later : FileFault} : Agrees old new place (.error fault) (.error later)

namespace Tree

variable {old new : Entry} {place : Place}

theorem agrees_followUpTo {jump later : Trail → List String → Except FileFault Spot}
    {trail other : Trail} {names : List String} (hgains : old.Gains new place)
    (hjump : ∀ {trail other names}, trail.Beside old new other →
      Spot.Agrees old new place (jump trail names) (later other names))
    (h : trail.Beside old new other) :
    Spot.Agrees old new place (followUpTo old jump trail names)
      (followUpTo new later other names) := by
  induction names generalizing trail other with
  | nil => exact .occupied h
  | cons step rest ih =>
    rw [followUpTo, followUpTo, (h.alike hgains).isDirectory_eq]
    split
    · exact .error
    · next hdirectory =>
      split
      · exact ih h
      · split
        · exact ih h.tail
        · split
          · exact .error
          · cases hentry : (old.atEnd trail).member? step with
            | none =>
              rcases h.free hgains hentry with hfree | ⟨hplace, content, hfile⟩
              · rw [hfree]
                dsimp only
                split
                · exact .vacant h (by simpa using hdirectory) hentry
                · exact .error
              · rw [hfile]
                dsimp only
                split
                · exact .filled hplace
                · -- Nothing lies below the file, as nothing lay below the free name.
                  cases rest with
                  | nil => contradiction
                  | cons next rest => exact .error
            | some entry =>
              obtain ⟨found, hfound, halike⟩ := h.member? hgains hentry
              rw [hfound]
              cases halike with
              | link target => exact hjump (h.origin target)
              | file content => exact ih (h.down hentry hfound)
              | directory members others => exact ih (h.down hentry hfound)

theorem agrees_follow {links : Nat} {trail other : Trail} {names : List String}
    (hgains : old.Gains new place) (h : trail.Beside old new other) :
    Spot.Agrees old new place (follow old links trail names) (follow new links other names) := by
  induction links generalizing trail other names with
  | zero => exact agrees_followUpTo hgains (fun _ => .error) h
  | succ links ih => exact agrees_followUpTo hgains ih h

/-! ## A tree with one file more -/

/-- The directory that relative paths start from is there. -/
def IsHome (tree : Tree) : Prop := (tree.root.find? tree.workingDirectory).isSome = true

instance (tree : Tree) : Decidable tree.IsHome := inferInstanceAs (Decidable (_ = true))

/-- The place that a path leads to, whether something stands there or the name is free. -/
def place? (tree : Tree) (path : Path) : Option Place :=
  match tree.spot path with
  | .ok (.occupied trail) => some trail.place
  | .ok (.vacant trail name) => some (trail.place ++ [name])
  | .error _ => none

/-- The grown tree holds what the tree holds, and besides that a file at one place at most. -/
structure Grows (tree grown : Tree) (place : Place) : Prop where
  gains : tree.root.Gains grown.root place
  here : grown.workingDirectory = tree.workingDirectory

variable {tree grown : Tree} {path file : Path} {content : String}

theorem exists?_of_read {text : String} (h : tree.read path = .ok text) :
    tree.exists? path = true := by
  unfold read at h
  unfold exists?
  cases hfind : tree.find path with
  | ok entry => rfl
  | error fault => rw [hfind] at h; cases h

theorem agrees_spot (h : tree.Grows grown place) (hhome : tree.IsHome) (path : Path) :
    Spot.Agrees tree.root grown.root place (tree.spot path) (grown.spot path) := by
  unfold spot
  cases refusal? path with
  | some fault => exact .error
  | none =>
    unfold followFrom
    rw [h.here]
    exact agrees_follow h.gains ((Trail.Beside.top.trailTo h.gains hhome).origin path.text)

theorem exists?_of_grows (h : tree.Grows grown place) (hhome : tree.IsHome)
    (hplace : tree.place? path ≠ some place) : grown.exists? path = tree.exists? path := by
  have hagrees := agrees_spot h hhome path
  unfold place? at hplace
  unfold exists? find trail
  generalize tree.spot path = before at hagrees hplace
  generalize grown.spot path = after at hagrees
  cases hagrees with
  | filled hfilled => exact absurd (congrArg some hfilled) hplace
  | _ => rfl

theorem read_of_grows {text : String} (h : tree.Grows grown place) (hhome : tree.IsHome)
    (hread : tree.read path = .ok text) : grown.read path = .ok text := by
  have hagrees := agrees_spot h hhome path
  unfold read find trail at hread ⊢
  generalize tree.spot path = before at hagrees hread
  generalize grown.spot path = after at hagrees
  cases hagrees with
  | @occupied trail other hbeside =>
    have halike := hbeside.alike h.gains
    simp only [Except.map] at hread ⊢
    generalize tree.root.atEnd trail = entry at halike hread
    generalize grown.root.atEnd other = found at halike
    cases halike with
    | file _ => exact hread
    | link _ => cases hread
    | directory _ _ => cases hread
  | _ => cases hread

/-- A free name that a path leads to is one of a directory that is there. -/
theorem exists_of_vacant {trail : Trail} {name : String} (hhome : tree.IsHome)
    (h : tree.spot path = .ok (.vacant trail name)) :
    ∃ members, tree.root.find? trail.place = some (.directory members) ∧
      members.lookup name = none := by
  -- The lookup stands beside itself, so its trail is one of this tree.
  have hself : tree.Grows tree [] := ⟨.refl tree.root [], rfl⟩
  have hagrees := agrees_spot hself hhome path
  rw [h] at hagrees
  cases hagrees with
  | vacant hbeside hdirectory hfree =>
    obtain ⟨hplace, -⟩ := hbeside.find?_place
    rw [hplace]
    cases hend : tree.root.atEnd trail with
    | directory members =>
      rw [hend] at hfree
      exact ⟨members, rfl, hfree⟩
    | _ => rw [hend] at hdirectory; cases hdirectory
  | filled hfilled => exact absurd hfilled (by simp)

/-- Writing a file that is not there adds it to the tree and changes nothing else. -/
theorem grows_of_write (hhome : tree.IsHome) (habsent : tree.exists? file = false)
    (h : tree.write file content = .ok grown) :
    ∃ place, tree.place? file = some place ∧ tree.Grows grown place := by
  unfold exists? find trail at habsent
  unfold write at h
  split at h
  · cases h
  · next trail name hspot =>
    cases h
    obtain ⟨members, hplace, hfree⟩ := exists_of_vacant hhome hspot
    have hfile : tree.place? file = some (trail.place ++ [name]) := by
      unfold place?
      rw [hspot]
    exact ⟨_, hfile, Entry.gains_alter hplace hfree, rfl⟩
  · cases h
  · next hspot =>
    rw [hspot] at habsent
    cases habsent

end Tree

end PackagePlan
