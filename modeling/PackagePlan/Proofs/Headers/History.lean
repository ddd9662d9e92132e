/-
  What the order of the registrations decides. The list of an index holds the names where they were
  first registered, each once (`names_registerAll`). An index answers by the records that it has
  under the names, and looks at the list only where it is about to refuse a header that nobody in
  the closure knows: then the order decides who is blamed (`resolve_alike`). Main statement:
  `registerAll_unordered`.
-/
import PackagePlan.Proofs.Headers.Visibility

namespace PackagePlan

/-- Under every name the last registrations of two histories leave the same record, if there are
    any. -/
def Registration.SameRecords (history other : List Registration) : Prop :=
  ∀ name, (latest? history name).map surface = (latest? other name).map surface

namespace HeaderIndex

variable {index other : HeaderIndex} {name : String} {own : HeaderSurface} {header written : Path}

/-! ## The names of an index -/

/-- The names stand in the order of their first registrations. -/
theorem names_registerAll (history : List Registration) :
    (registerAll history).names = (history.map (·.target.name)).eraseDups := by
  induction history using List.reverseRecOn with
  | nil => rfl
  | append_singleton history last ih =>
    have hlisted := (isListed_registerAll history).mem_iff last.target.name
    rw [ih, List.mem_eraseDups] at hlisted
    rw [registerAll_concat, names_register, ih, List.map_append, List.map_singleton]
    generalize history.map (·.target.name) = names at hlisted ⊢
    by_cases hknown : last.target.name ∈ names
    · rw [if_pos (hlisted.1 hknown)]
      simp [List.eraseDups_append, List.removeAll, hknown]
    · rw [if_neg (mt hlisted.2 hknown)]
      simp [List.eraseDups_append, List.removeAll, hknown, List.eraseDups_cons]

/-! ## Answers that do not look at the order -/

/-- What an index answers to a lookup, beside what another one answers: the same, or both refuse the
header, and if nobody in the closure knows it they may blame different owners. -/
inductive Alike (index : HeaderIndex) (name : String) (header : Path) :
    Except BuildError Inclusion → Except BuildError Inclusion → Prop where
  | same (answer : Except BuildError Inclusion) : Alike index name header answer answer
  | blame (owner owner' : String) {own : HeaderSurface} (hown : index.surface? name = some own)
      (hunknown : ∀ member ∈ own.closure, ¬index.KnownTo header member) :
      Alike index name header (.error (.invisibleHeader name header owner))
        (.error (.invisibleHeader name header owner'))

/-- Two indexes that answer every question in the same way, up to the owner that is blamed for a
header that nobody in the closure knows. -/
structure Answers (index other : HeaderIndex) : Prop where
  isRegistered : ∀ name, other.isRegistered name = index.isRegistered name
  offeredBy? : ∀ name, other.offeredBy? name = index.offeredBy? name
  includeDirs : ∀ name, other.includeDirs name = index.includeDirs name
  resolve : ∀ name written, index.Alike name written.normalize (index.resolve name written)
    (other.resolve name written)

section Records
variable (hsame : other.surface? = index.surface?) (hlisted : index.IsListed)
  (hlisted' : other.IsListed)
include hsame

theorem includeDirs_of_records (name : String) :
    other.includeDirs name = index.includeDirs name := by
  unfold includeDirs
  rw [hsame]

theorem knownTo_of_records : other.KnownTo header name ↔ index.KnownTo header name := by
  unfold KnownTo
  rw [hsame]

include hlisted hlisted' in
/-- Either index finds somebody to blame, or neither does. -/
theorem firstKnowing?_eq_none_of_records (hown : index.surface? name = some own)
    (hknows : own.knows header = false) :
    other.firstKnowing? header (own.closure ++ other.names.filter (· != name)) = none ↔
      index.firstKnowing? header (own.closure ++ index.names.filter (· != name)) = none := by
  have hnone : ∀ each : HeaderIndex, each.IsListed → each.surface? name = some own →
      (each.firstKnowing? header (own.closure ++ each.names.filter (· != name)) = none ↔
        ¬∃ owner, each.KnownTo header owner) := fun each hlisted heach => by
    rw [firstKnowing?_eq_none_iff, ← knownTo_search_iff hlisted heach hknows]
    simp
  rw [hnone index hlisted hown, hnone other hlisted' (hsame ▸ hown)]
  simp only [knownTo_of_records hsame]

/-- Somebody in the closure who knows the header is blamed by both indexes. -/
theorem firstKnowing?_of_records {known : String} (hknown : known ∈ own.closure)
    (hheader : index.KnownTo header known) :
    other.firstKnowing? header (own.closure ++ other.names.filter (· != name)) =
      index.firstKnowing? header (own.closure ++ index.names.filter (· != name)) := by
  have hfound : index.firstKnowing? header own.closure ≠ none := fun hnone =>
    firstKnowing?_eq_none_iff.1 hnone known hknown hheader
  unfold firstKnowing? at hfound ⊢
  obtain ⟨first, hfirst⟩ := Option.ne_none_iff_exists'.1 hfound
  rw [hsame, List.find?_append, List.find?_append, hfirst]
  rfl

include hlisted hlisted' in
/-- The records of an index decide its lookups, except for the owner that is blamed for a header
that nobody in the closure knows. -/
theorem resolve_alike (name : String) (written : Path) :
    index.Alike name written.normalize (index.resolve name written)
      (other.resolve name written) := by
  cases hown : index.surface? name with
  | none =>
    unfold resolve
    rw [hsame, hown]
    exact .same _
  | some own =>
    have hother : other.surface? name = some own := hsame ▸ hown
    have hoffering : other.firstOffering? written.normalize own.closure =
        index.firstOffering? written.normalize own.closure := by
      unfold firstOffering?
      rw [hsame]
    unfold resolve
    dsimp only
    rw [hown, hother]
    dsimp only
    rw [hoffering]
    cases hknows : own.knows written.normalize with
    | true => exact .same _
    | false =>
      cases index.firstOffering? written.normalize own.closure with
      | some owner => exact .same _
      | none =>
        have hnone := firstKnowing?_eq_none_of_records hsame hlisted hlisted' hown hknows
        by_cases hknown : ∃ member ∈ own.closure, index.KnownTo written.normalize member
        · obtain ⟨member, hmember, hheader⟩ := hknown
          rw [firstKnowing?_of_records hsame hmember hheader]
          exact .same _
        · cases hindex : index.firstKnowing? written.normalize
              (own.closure ++ index.names.filter (· != name)) with
          | none =>
            rw [hnone.2 hindex]
            exact .same _
          | some owner =>
            cases hblamed : other.firstKnowing? written.normalize
                (own.closure ++ other.names.filter (· != name)) with
            | none =>
              rw [hnone.1 hblamed] at hindex
              cases hindex
            | some owner' =>
              exact .blame owner owner' hown fun member hmember hheader =>
                hknown ⟨member, hmember, hheader⟩

include hlisted hlisted' in
/-- An index with the same records answers in the same way. -/
theorem answers_of_records : Answers index other where
  isRegistered name := by unfold isRegistered; rw [hsame]
  offeredBy? name := by unfold offeredBy?; rw [hsame]
  includeDirs := includeDirs_of_records hsame
  resolve := resolve_alike hsame hlisted hlisted'

end Records

/-! ## After a history of registrations -/

/-- The names of an index are those that were registered, each once, at its first place. Two
histories that leave the same records give the same answers, whatever the order of the names. -/
theorem registerAll_unordered (history : List Registration) :
    ((registerAll history).names = (history.map (·.target.name)).eraseDups ∧
      (registerAll history).names.Nodup ∧
      ∀ name, name ∈ (registerAll history).names ↔
        (registerAll history).isRegistered name = true) ∧
    ∀ other, Registration.SameRecords history other →
      Answers (registerAll history) (registerAll other) := by
  have hlisted := isListed_registerAll history
  refine ⟨⟨names_registerAll history, hlisted.nodup, hlisted.mem_iff⟩, fun other hsame => ?_⟩
  refine answers_of_records (funext fun name => ?_) hlisted (isListed_registerAll other)
  rw [surface?_registerAll, surface?_registerAll]
  exact (hsame name).symm

/-- The targets of one package, registered in another order and with an outdated record of the
application in front. -/
def reordered : List Registration := [
  sample "app" [⟨"old.h"⟩] ["tool"],
  sample "tool" [⟨"tool.h"⟩] [],
  sample "rig" [⟨"tool.h"⟩] [],
  sample "app" [] []]

/-- The same targets without the detour. -/
def ordered : List Registration := [
  sample "rig" [⟨"tool.h"⟩] [],
  sample "tool" [⟨"tool.h"⟩] [],
  sample "app" [] []]

theorem sameRecords_reordered : Registration.SameRecords reordered ordered := by
  intro name
  by_cases happ : "app" = name
  · subst happ
    rfl
  by_cases hrig : "rig" = name
  · subst hrig
    rfl
  by_cases htool : "tool" = name
  · subst htool
    rfl
  have hnone : ∀ history : List Registration,
      (∀ registration ∈ history, registration.target.name ∈ ["app", "rig", "tool"]) →
        Registration.latest? history name = none := by
    intro history hnames
    refine List.find?_eq_none.2 fun registration hmem hfound => ?_
    have hname := hnames registration (List.mem_reverse.1 hmem)
    rw [beq_iff_eq.1 hfound] at hname
    simp [Ne.symm happ, Ne.symm hrig, Ne.symm htool] at hname
  rw [hnone reordered (by decide), hnone ordered (by decide)]

/-- Both refuse the tool's header to the application, and each blames the target that it has
first. -/
theorem registerAll_unordered_reordered :
    Registration.SameRecords reordered ordered ∧
    (registerAll reordered).names = ["app", "tool", "rig"] ∧
    (registerAll reordered).resolve "app" ⟨"tool.h"⟩ =
      .error (.invisibleHeader "app" ⟨"tool.h"⟩ "tool") ∧
    (registerAll ordered).resolve "app" ⟨"tool.h"⟩ =
      .error (.invisibleHeader "app" ⟨"tool.h"⟩ "rig") ∧
    Answers (registerAll reordered) (registerAll ordered) :=
  ⟨sameRecords_reordered, by decide +kernel, by decide +kernel, by decide +kernel,
    (registerAll_unordered reordered).2 ordered sameRecords_reordered⟩

end HeaderIndex

end PackagePlan
