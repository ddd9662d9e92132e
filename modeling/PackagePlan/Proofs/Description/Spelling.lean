/-
  Descriptions that spell the paths of their targets in other ways. A variant that can be applied
  to one of them can be applied to the other, and the descriptors differ in nothing but these paths
  (`descriptorFor_respelled`).
-/
import PackagePlan.Proofs.Description.Materialize
import PackagePlan.Proofs.Source.Spelling

namespace PackagePlan

/-- The same description, with other spellings of the paths of its targets. -/
structure PackageDescription.Respells (base other : PackageDescription) : Prop where
  record : other = { base with targets := other.targets }
  targets : List.Forall₂ Target.Respells base.targets other.targets

/-- The same descriptor, with other spellings of the paths of its targets. -/
structure Descriptor.Respells (base other : Descriptor) : Prop where
  record : other = { base with targets := other.targets }
  targets : List.Forall₂ Target.Respells base.targets other.targets

/-! ## Applying a variant -/

theorem Target.Respells.withExclude {base other : Target} (h : base.Respells other)
    (patterns : List String) :
    Target.Respells { base with exclude := patterns } { other with exclude := patterns } where
  record := by rw [h.record]
  path := h.path
  sources := h.sources
  publicHeaders := h.publicHeaders
  headerSearchPaths := h.headerSearchPaths

section
variable {targets others targets' : List Target} (h : List.Forall₂ Target.Respells targets others)
include h

theorem excludeIn_respelled {name : String} {patterns : List String}
    (hin : excludeIn name patterns targets = some targets') :
    ∃ others', excludeIn name patterns others = some others' ∧
      List.Forall₂ Target.Respells targets' others' := by
  induction h generalizing targets' with
  | nil => cases hin
  | @cons target other rest more hhead hrest ih =>
    rw [excludeIn] at hin ⊢
    split at hin
    · next hname =>
      obtain rfl := Option.some.inj hin
      rw [if_pos (hhead.name.trans hname), hhead.exclude]
      exact ⟨_, rfl, .cons (hhead.withExclude _) hrest⟩
    · next hname =>
      obtain ⟨changed, hchanged, rfl⟩ := Option.map_eq_some_iff.1 hin
      obtain ⟨changed', hchanged', hall⟩ := ih hchanged
      rw [if_neg (by rwa [hhead.name]), hchanged']
      exact ⟨_, rfl, .cons hhead hall⟩

theorem excludeAll_respelled {variant : String} {extra : List (String × List String)}
    (hall : excludeAll variant targets extra = .ok targets') :
    ∃ others', excludeAll variant others extra = .ok others' ∧
      List.Forall₂ Target.Respells targets' others' := by
  induction extra generalizing targets others with
  | nil =>
    obtain rfl := Except.ok.inj hall
    exact ⟨others, rfl, h⟩
  | cons entry rest ih =>
    rw [excludeAll] at hall ⊢
    split at hall
    · next hin =>
      obtain ⟨changed, hchanged, hsame⟩ := excludeIn_respelled h hin
      rw [hchanged]
      exact ih hsame hall
    · cases hall

end

namespace PackageDescription

variable {base other : PackageDescription}

theorem Respells.symm (h : base.Respells other) : other.Respells base where
  record := by rw [h.record]
  targets := h.targets.flip.imp fun _ _ hsame => hsame.symm

/-- A variant that can be applied to one description can be applied to the other. -/
theorem descriptorFor_respelled (h : base.Respells other) {toolsVersion : Version}
    {descriptor : Descriptor} (hdescriptor : base.descriptorFor toolsVersion = .ok descriptor) :
    ∃ descriptor', other.descriptorFor toolsVersion = .ok descriptor' ∧
      descriptor.Respells descriptor' := by
  obtain ⟨variant, hselect, hmaterialize⟩ := descriptorFor_eq_ok hdescriptor
  obtain ⟨targets, htargets, hhidden, rfl⟩ := materialize_eq_ok_iff.1 hmaterialize
  obtain ⟨targets', htargets', hsame⟩ := excludeAll_respelled h.targets htargets
  have hselect' : other.select toolsVersion = .ok variant := by
    rw [h.record]
    exact hselect
  have hhidden' : other.firstHiddenProduct? variant = none := by
    rw [h.record]
    exact hhidden
  have hmaterialize' := materialize_eq_ok_iff.2 ⟨targets', htargets', hhidden', rfl⟩
  refine ⟨_, Outcome.bind_eq_ok.2 ⟨variant, hselect', hmaterialize'⟩, ?_, hsame⟩
  rw [h.record]

end PackageDescription

end PackagePlan
