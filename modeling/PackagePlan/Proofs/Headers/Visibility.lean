/-
  Which headers a target can see. A lookup has four ends (`resolve_cases`): the target has a header
  of the name, or the first target of its closure that offers one gives it, or the name is known
  elsewhere and refused, or nobody knows it. Only the last two look beyond the target and its
  closure, so what stands outside can change a refusal and nothing else (`resolve_ok_of_agree`).
  Main statement: `resolve_visible`, for every history of registrations.
-/
import PackagePlan.Proofs.Headers.Registration

namespace PackagePlan

/-- How a lookup of a header by a target can fail. -/
inductive Refusal (target : String) (header : Path) : BuildError → Prop where
  | invisible (owner : String) : Refusal target header (.invisibleHeader target header owner)
  | notFound : Refusal target header (.headerNotFound target header)

namespace HeaderIndex

/-- A registered target offers the header. -/
def OfferedBy (index : HeaderIndex) (header : Path) (name : String) : Prop :=
  ∃ surface, index.surface? name = some surface ∧ surface.offers header = true

/-- A registered target knows the header, public or not. -/
def KnownTo (index : HeaderIndex) (header : Path) (name : String) : Prop :=
  ∃ surface, index.surface? name = some surface ∧ surface.knows header = true

variable {index other : HeaderIndex} {name : String} {own : HeaderSurface} {header written : Path}

/-! ## The two searches -/

theorem any_surface? {p : HeaderSurface → Bool} :
    (index.surface? name).any p = true ↔
      ∃ surface, index.surface? name = some surface ∧ p surface = true := by
  cases index.surface? name with
  | none => simp
  | some surface => simp

/-- The search through the closure stops at the first target that offers the header. -/
theorem firstOffering?_eq_some_iff {names : List String} {owner : String} :
    index.firstOffering? header names = some owner ↔
      ∃ before after, names = before ++ owner :: after ∧ index.OfferedBy header owner ∧
        ∀ earlier ∈ before, ¬index.OfferedBy header earlier := by
  unfold firstOffering?
  rw [List.find?_eq_some_iff_append, any_surface?]
  constructor
  · intro h
    obtain ⟨hoffers, before, after, hsplit, hbefore⟩ := h
    refine ⟨before, after, hsplit, hoffers, fun earlier hearlier hoffered => ?_⟩
    have hmiss := hbefore earlier hearlier
    rw [any_surface?.2 hoffered] at hmiss
    cases hmiss
  · intro h
    obtain ⟨before, after, hsplit, hoffers, hbefore⟩ := h
    refine ⟨hoffers, before, after, hsplit, fun earlier hearlier => ?_⟩
    rw [Bool.not_eq_true', Bool.eq_false_iff]
    exact fun hoffered => hbefore earlier hearlier (any_surface?.1 hoffered)

theorem firstKnowing?_eq_none_iff {names : List String} :
    index.firstKnowing? header names = none ↔ ∀ owner ∈ names, ¬index.KnownTo header owner := by
  unfold firstKnowing?
  rw [List.find?_eq_none]
  simp only [any_surface?]
  rfl

theorem firstOffering?_eq_none_iff {names : List String} :
    index.firstOffering? header names = none ↔
      ∀ owner ∈ names, ¬index.OfferedBy header owner := by
  unfold firstOffering?
  rw [List.find?_eq_none]
  simp only [any_surface?]
  rfl

theorem knownTo_of_firstKnowing? {names : List String} {owner : String}
    (h : index.firstKnowing? header names = some owner) : index.KnownTo header owner := by
  unfold firstKnowing? at h
  have hany := List.find?_some h
  exact any_surface?.1 hany

/-- Targets with the same records are searched with the same result. -/
theorem firstOffering?_congr {names : List String}
    (h : ∀ member ∈ names, index.surface? member = other.surface? member) :
    index.firstOffering? header names = other.firstOffering? header names := by
  unfold firstOffering?
  induction names with
  | nil => rfl
  | cons first rest ih =>
    obtain ⟨hfirst, hrest⟩ := List.forall_mem_cons.1 h
    rw [List.find?_cons, List.find?_cons, hfirst, ih hrest]

/-! ## The lookup -/

/-- The four ends of a lookup, each under its own condition. -/
theorem resolve_cases (hown : index.surface? name = some own) (written : Path) :
    (own.knows written.normalize = true ∧ index.resolve name written = .ok .own) ∨
    own.knows written.normalize = false ∧
      ((∃ owner, index.firstOffering? written.normalize own.closure = some owner ∧
          index.resolve name written = .ok (.offeredBy owner)) ∨
        index.firstOffering? written.normalize own.closure = none ∧
        ((∃ owner, index.firstKnowing? written.normalize
              (own.closure ++ index.names.filter (· != name)) = some owner ∧
            index.resolve name written =
              .error (.invisibleHeader name written.normalize owner)) ∨
          index.firstKnowing? written.normalize
              (own.closure ++ index.names.filter (· != name)) = none ∧
            index.resolve name written = .error (.headerNotFound name written.normalize))) := by
  unfold resolve
  dsimp only
  rw [hown]
  dsimp only
  cases hknows : own.knows written.normalize with
  | true => exact .inl ⟨rfl, rfl⟩
  | false =>
    refine .inr ⟨rfl, ?_⟩
    cases hoffering : index.firstOffering? written.normalize own.closure with
    | some owner => exact .inl ⟨owner, rfl, rfl⟩
    | none =>
      refine .inr ⟨rfl, ?_⟩
      cases hknowing : index.firstKnowing? written.normalize
          (own.closure ++ index.names.filter (· != name)) with
      | some owner => exact .inl ⟨owner, rfl, rfl⟩
      | none => exact .inr ⟨rfl, rfl⟩

/-- Only a registered target finds a header. -/
theorem exists_surface_of_resolve {inclusion : Inclusion}
    (h : index.resolve name written = .ok inclusion) :
    ∃ own, index.surface? name = some own := by
  unfold resolve at h
  dsimp only at h
  split at h
  · cases h
  · next own hown => exact ⟨own, hown⟩

theorem resolve_eq_own_iff (hown : index.surface? name = some own) :
    index.resolve name written = .ok .own ↔ own.knows written.normalize = true := by
  rcases resolve_cases hown written with
    ⟨hknows, h⟩ | ⟨hknows, ⟨owner, -, h⟩ | ⟨-, ⟨owner, -, h⟩ | ⟨-, h⟩⟩⟩
  all_goals rw [h, hknows]
  · simp
  · simp
  · simp
  · simp

theorem resolve_eq_offeredBy_iff (hown : index.surface? name = some own) {owner : String} :
    index.resolve name written = .ok (.offeredBy owner) ↔
      own.knows written.normalize = false ∧
        index.firstOffering? written.normalize own.closure = some owner := by
  rcases resolve_cases hown written with
    ⟨hknows, h⟩ | ⟨hknows, ⟨first, hfirst, h⟩ | ⟨hfirst, ⟨known, -, h⟩ | ⟨-, h⟩⟩⟩
  · simp [h, hknows]
  · simp [h, hknows, hfirst]
  · simp [h, hknows, hfirst]
  · simp [h, hknows, hfirst]

/-- A lookup succeeds where the target knows the header or its closure offers it. -/
theorem exists_resolve_iff (hown : index.surface? name = some own) :
    (∃ inclusion, index.resolve name written = .ok inclusion) ↔
      own.knows written.normalize = true ∨
        ∃ owner ∈ own.closure, index.OfferedBy written.normalize owner := by
  have hrefused : own.knows written.normalize = false →
      index.firstOffering? written.normalize own.closure = none →
      ¬(own.knows written.normalize = true ∨
        ∃ owner ∈ own.closure, index.OfferedBy written.normalize owner) := by
    intro hknows hnone hfound
    rcases hfound with hown | ⟨owner, howner, hoffered⟩
    · rw [hknows] at hown
      cases hown
    · exact firstOffering?_eq_none_iff.1 hnone owner howner hoffered
  rcases resolve_cases hown written with
    ⟨hknows, h⟩ | ⟨hknows, ⟨owner, howner, h⟩ | ⟨hnone, ⟨owner, -, h⟩ | ⟨-, h⟩⟩⟩
  · exact ⟨fun _ => .inl hknows, fun _ => ⟨_, h⟩⟩
  · obtain ⟨before, after, hsplit, hoffered, -⟩ := firstOffering?_eq_some_iff.1 howner
    have hin : owner ∈ own.closure := by
      rw [hsplit]
      exact List.mem_append_right _ List.mem_cons_self
    exact ⟨fun _ => .inr ⟨owner, hin, hoffered⟩, fun _ => ⟨_, h⟩⟩
  · rw [h]
    exact ⟨fun hend => (nomatch hend), fun hseen => absurd hseen (hrefused hknows hnone)⟩
  · rw [h]
    exact ⟨fun hend => (nomatch hend), fun hseen => absurd hseen (hrefused hknows hnone)⟩

theorem refusal_of_resolve (hown : index.surface? name = some own) {error : BuildError}
    (h : index.resolve name written = .error error) : Refusal name written.normalize error := by
  rcases resolve_cases hown written with
    ⟨-, hend⟩ | ⟨-, ⟨owner, -, hend⟩ | ⟨-, ⟨owner, -, hend⟩ | ⟨-, hend⟩⟩⟩
  · rw [hend] at h; cases h
  · rw [hend] at h; cases h
  · rw [hend] at h; cases h; exact .invisible owner
  · rw [hend] at h; cases h; exact .notFound

/-- Who knows the name is found by the last search, unless it is the target itself. -/
theorem knownTo_search_iff (hlisted : index.IsListed) (hown : index.surface? name = some own)
    (hknows : own.knows header = false) :
    (∃ owner ∈ own.closure ++ index.names.filter (· != name), index.KnownTo header owner) ↔
      ∃ owner, index.KnownTo header owner := by
  constructor
  · intro h
    obtain ⟨owner, -, hknown⟩ := h
    exact ⟨owner, hknown⟩
  · intro h
    obtain ⟨owner, surface, hsurface, hknown⟩ := h
    refine ⟨owner, List.mem_append_right _ (List.mem_filter.2 ⟨?_, ?_⟩), surface, hsurface, hknown⟩
    · exact (hlisted.mem_iff owner).2 (isRegistered_iff.2 ⟨surface, hsurface⟩)
    · rw [bne_iff_ne]
      rintro rfl
      rw [hown] at hsurface
      obtain rfl := Option.some.inj hsurface
      rw [hknows] at hknown
      cases hknown

theorem resolve_eq_headerNotFound (hown : index.surface? name = some own)
    (hunknown : ∀ owner, ¬index.KnownTo written.normalize owner) :
    index.resolve name written = .error (.headerNotFound name written.normalize) := by
  rcases resolve_cases hown written with
    ⟨hknows, -⟩ | ⟨-, ⟨owner, howner, -⟩ | ⟨-, ⟨owner, howner, -⟩ | ⟨-, h⟩⟩⟩
  · exact absurd ⟨own, hown, hknows⟩ (hunknown name)
  · -- What a target offers it also knows.
    obtain ⟨-, -, -, ⟨surface, hsurface, hoffers⟩, -⟩ := firstOffering?_eq_some_iff.1 howner
    have hknown : surface.knows written.normalize = true := by
      unfold HeaderSurface.knows
      rw [Bool.or_eq_true]
      exact .inl hoffers
    exact absurd ⟨surface, hsurface, hknown⟩ (hunknown owner)
  · exact absurd (knownTo_of_firstKnowing? howner) (hunknown owner)
  · exact h

/-- A header is not found when nobody knows it, because the last search asks every registered
target. -/
theorem resolve_eq_headerNotFound_iff (hlisted : index.IsListed)
    (hown : index.surface? name = some own) :
    index.resolve name written = .error (.headerNotFound name written.normalize) ↔
      ∀ owner, ¬index.KnownTo written.normalize owner := by
  refine ⟨fun hmissing => ?_, resolve_eq_headerNotFound hown⟩
  rcases resolve_cases hown written with
    ⟨-, h⟩ | ⟨hknows, ⟨owner, -, h⟩ | ⟨-, ⟨owner, -, h⟩ | ⟨hnone, -⟩⟩⟩
  · rw [h] at hmissing; cases hmissing
  · rw [h] at hmissing; cases hmissing
  · rw [h] at hmissing; cases hmissing
  · intro owner hknown
    obtain ⟨found, hfound, hknown⟩ := (knownTo_search_iff hlisted hown hknows).2 ⟨owner, hknown⟩
    exact firstKnowing?_eq_none_iff.1 hnone found hfound hknown

/-- The owner that a refusal names is another target, and it knows the header. -/
theorem knownTo_of_resolve (hown : index.surface? name = some own) {owner : String}
    (h : index.resolve name written = .error (.invisibleHeader name written.normalize owner)) :
    owner ≠ name ∧ index.KnownTo written.normalize owner := by
  rcases resolve_cases hown written with
    ⟨-, hend⟩ | ⟨hknows, ⟨found, -, hend⟩ | ⟨-, ⟨found, hfound, hend⟩ | ⟨-, hend⟩⟩⟩
  · rw [hend] at h; cases h
  · rw [hend] at h; cases h
  · rw [hend] at h
    cases h
    have hknown := knownTo_of_firstKnowing? hfound
    refine ⟨?_, hknown⟩
    rintro rfl
    obtain ⟨surface, hsurface, hknown⟩ := hknown
    rw [hown] at hsurface
    obtain rfl := Option.some.inj hsurface
    rw [hknows] at hknown
    cases hknown
  · rw [hend] at h; cases h

/-- What a lookup finds is settled by the records of the target and of its closure. -/
theorem resolve_ok_of_agree (hown : index.surface? name = some own)
    (hagree : ∀ member, member = name ∨ member ∈ own.closure →
      index.surface? member = other.surface? member) {inclusion : Inclusion} :
    index.resolve name written = .ok inclusion ↔ other.resolve name written = .ok inclusion := by
  have hother : other.surface? name = some own := (hagree name (.inl rfl)).symm.trans hown
  have hsearch : index.firstOffering? written.normalize own.closure =
      other.firstOffering? written.normalize own.closure :=
    firstOffering?_congr fun member hmember => hagree member (.inr hmember)
  cases inclusion with
  | own => rw [resolve_eq_own_iff hown, resolve_eq_own_iff hother]
  | offeredBy owner =>
    rw [resolve_eq_offeredBy_iff hown, resolve_eq_offeredBy_iff hother, hsearch]

/-! ## After a history of registrations -/

section History
variable {history : List Registration} {registration : Registration}

theorem surface?_of_latest? (h : Registration.latest? history name = some registration) :
    (registerAll history).surface? name = some registration.surface := by
  rw [surface?_registerAll, h, Option.map_some]

theorem exists_latest?_iff {p : HeaderSurface → Prop} :
    (∃ surface, (registerAll history).surface? name = some surface ∧ p surface) ↔
      ∃ registration, Registration.latest? history name = some registration ∧
        p registration.surface := by
  rw [surface?_registerAll]
  simp only [Option.map_eq_some_iff]
  constructor
  · intro h
    obtain ⟨_, ⟨registration, hlatest, rfl⟩, hp⟩ := h
    exact ⟨registration, hlatest, hp⟩
  · intro h
    obtain ⟨registration, hlatest, hp⟩ := h
    exact ⟨registration.surface, ⟨registration, hlatest, rfl⟩, hp⟩

/-- A target whose last registration offers the header. -/
def Offering (history : List Registration) (header : Path) (name : String) : Prop :=
  ∃ registration, Registration.latest? history name = some registration ∧
    registration.Offers header

/-- A target whose last registration knows the header. -/
def Knowing (history : List Registration) (header : Path) (name : String) : Prop :=
  ∃ registration, Registration.latest? history name = some registration ∧
    registration.Knows header

theorem offeredBy_iff : (registerAll history).OfferedBy header name ↔
    Offering history header name := by
  unfold OfferedBy Offering
  rw [exists_latest?_iff]
  simp only [Registration.offers_surface]

theorem knownTo_iff : (registerAll history).KnownTo header name ↔
    Knowing history header name := by
  unfold KnownTo Knowing
  rw [exists_latest?_iff]
  simp only [Registration.knows_surface]

end History

/-- What the lookup of a name as written by a target owes to a history of registrations, where
    `own` is the last registration of the target. -/
structure Visible (history : List Registration) (name : String) (own : Registration)
    (written : Path) : Prop where
  /-- The target's own header goes before all others. -/
  own_iff : (registerAll history).resolve name written = .ok .own ↔ own.Knows written.normalize
  /-- Another's header is seen when the first target of the closure that offers it is that one,
      and the target has no header of that name. -/
  offeredBy_iff : ∀ owner, (registerAll history).resolve name written = .ok (.offeredBy owner) ↔
    ¬own.Knows written.normalize ∧
      ∃ before after, own.closure = before ++ owner :: after ∧
        Offering history written.normalize owner ∧
        ∀ earlier ∈ before, ¬Offering history written.normalize earlier
  /-- In another history in which the target and its closure have the same records the lookup finds
      the same, or fails too, perhaps with the other refusal. -/
  isolated : ∀ other,
    (∀ member, member = name ∨ member ∈ own.closure →
      (Registration.latest? history member).map Registration.surface =
        (Registration.latest? other member).map Registration.surface) →
    (∀ inclusion, (registerAll history).resolve name written = .ok inclusion ↔
      (registerAll other).resolve name written = .ok inclusion) ∧
    ∀ error, (registerAll history).resolve name written = .error error →
      ∃ otherError, (registerAll other).resolve name written = .error otherError ∧
        Refusal name written.normalize error ∧ Refusal name written.normalize otherError
  /-- A header is not found when no registered target knows it. -/
  headerNotFound_iff :
    (registerAll history).resolve name written =
        .error (.headerNotFound name written.normalize) ↔
      ∀ owner, ¬Knowing history written.normalize owner
  /-- A lookup fails by one of the two refusals. -/
  refused : ∀ error, (registerAll history).resolve name written = .error error →
    Refusal name written.normalize error
  /-- The owner that a refusal names is another registered target that knows the header. -/
  owner_knows : ∀ owner, (registerAll history).resolve name written =
      .error (.invisibleHeader name written.normalize owner) →
    owner ≠ name ∧ Knowing history written.normalize owner

/-- After any history of registrations, what a registered target sees of a header is settled by
    its own record and those of its closure, and what it does not see is refused truthfully. -/
theorem resolve_visible (history : List Registration) {name : String} {own : Registration}
    (h : Registration.latest? history name = some own) (written : Path) :
    Visible history name own written := by
  have hown := surface?_of_latest? h
  have hknows : own.surface.knows written.normalize = false ↔ ¬own.Knows written.normalize := by
    rw [← Bool.not_eq_true, Registration.knows_surface]
  refine
    { own_iff := (resolve_eq_own_iff hown).trans Registration.knows_surface
      offeredBy_iff := fun owner => ?_
      isolated := fun other hagree => ?_
      headerNotFound_iff := ?_
      refused := fun error => refusal_of_resolve hown
      owner_knows := fun owner hrefused => ?_ }
  · rw [resolve_eq_offeredBy_iff hown, hknows, firstOffering?_eq_some_iff]
    simp only [HeaderIndex.offeredBy_iff]
    rfl
  · have hrecords : ∀ member, member = name ∨ member ∈ own.surface.closure →
        (registerAll history).surface? member = (registerAll other).surface? member := by
      intro member hmember
      rw [surface?_registerAll, surface?_registerAll]
      exact hagree member hmember
    have hsame : ∀ inclusion, (registerAll history).resolve name written = .ok inclusion ↔
        (registerAll other).resolve name written = .ok inclusion :=
      fun inclusion => resolve_ok_of_agree hown hrecords
    refine ⟨hsame, fun error herror => ?_⟩
    cases hother : (registerAll other).resolve name written with
    | ok inclusion =>
      rw [(hsame inclusion).2 hother] at herror
      cases herror
    | error otherError =>
      have hownOther := (hrecords name (.inl rfl)).symm.trans hown
      exact ⟨otherError, rfl, refusal_of_resolve hown herror, refusal_of_resolve hownOther hother⟩
  · rw [resolve_eq_headerNotFound_iff (isListed_registerAll history) hown]
    simp only [knownTo_iff]
  · obtain ⟨hne, hknown⟩ := knownTo_of_resolve hown hrefused
    exact ⟨hne, knownTo_iff.1 hknown⟩

/-- A registration of a target with one private header and the public headers of these names. -/
def sample (name : String) (offered : List Path) (closure : List String) : Registration :=
  { target := { name, path := ⟨name⟩ }
    sources := {
      target := name
      root := ⟨name⟩
      files := [⟨name ++ "_p.h"⟩, ⟨"main.c"⟩]
      publicDir := some ⟨name ++ "/include"⟩
      publicHeaders := offered
      unusedExclusions := [] }
    closure }

/-- Two libraries that offer a header of one name, an application above them that was registered
    twice, and a tool outside its closure that offers one more. -/
def collision : List Registration := [
  sample "app" [⟨"api.h"⟩] [],
  sample "core" [⟨"api.h"⟩] [],
  sample "util" [⟨"api.h"⟩, ⟨"util.h"⟩] ["core"],
  sample "tool" [⟨"tool.h"⟩] [],
  sample "app" [] ["core", "util"]]

theorem resolve_visible_collision :
    Registration.latest? collision "app" = some (sample "app" [] ["core", "util"]) ∧
    (registerAll collision).resolve "app" ⟨"./api.h"⟩ = .ok (.offeredBy "core") ∧
    (registerAll collision).resolve "app" ⟨"core_p.h"⟩ =
      .error (.invisibleHeader "app" ⟨"core_p.h"⟩ "core") ∧
    (registerAll collision).resolve "app" ⟨"tool.h"⟩ =
      .error (.invisibleHeader "app" ⟨"tool.h"⟩ "tool") ∧
    Visible collision "app" (sample "app" [] ["core", "util"]) ⟨"./api.h"⟩ :=
  ⟨rfl, by decide +kernel, by decide +kernel, by decide +kernel,
    resolve_visible collision rfl ⟨"./api.h"⟩⟩

end HeaderIndex

end PackagePlan
