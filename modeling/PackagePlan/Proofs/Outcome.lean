/-
  Computations that may fail: what the outcome of a whole says about the outcomes of its steps.
  Each lemma takes a sequence apart at one place, so that a proof about a resolution follows its
  steps and does not open them.
-/
import Mathlib.Data.List.Forall2

namespace PackagePlan.Outcome

variable {ε α β : Type}

theorem ok_bind {a : α} {f : α → Except ε β} : (.ok a : Except ε α) >>= f = f a := rfl

theorem bind_eq_ok {x : Except ε α} {f : α → Except ε β} {b : β} :
    x >>= f = .ok b ↔ ∃ a, x = .ok a ∧ f a = .ok b := by
  cases x <;> simp [Bind.bind, Except.bind]

/-- A check in front of a computation has passed. -/
theorem check_bind_eq_ok {x : Except ε Unit} {y : Except ε β} {b : β} :
    (x >>= fun _ => y) = .ok b ↔ x = .ok () ∧ y = .ok b := by
  rw [bind_eq_ok]
  exact ⟨fun ⟨_, hx, hy⟩ => ⟨hx, hy⟩, fun ⟨hx, hy⟩ => ⟨(), hx, hy⟩⟩

theorem bind_eq_error {x : Except ε α} {f : α → Except ε β} {e : ε} :
    x >>= f = .error e ↔ x = .error e ∨ ∃ a, x = .ok a ∧ f a = .error e := by
  cases x <;> simp [Bind.bind, Except.bind]

theorem map_eq_ok {x : Except ε α} {f : α → β} {b : β} :
    x.map f = .ok b ↔ ∃ a, x = .ok a ∧ f a = b := by
  cases x <;> simp [Except.map]

theorem map_eq_error {x : Except ε α} {f : α → β} {e : ε} :
    x.map f = .error e ↔ x = .error e := by
  cases x <;> simp [Except.map]

theorem mapError_eq_ok {δ : Type} {x : Except ε α} {f : ε → δ} {a : α} :
    x.mapError f = .ok a ↔ x = .ok a := by
  cases x <;> simp [Except.mapError]

theorem isOk_iff {x : Except ε α} : x.isOk = true ↔ ∃ a, x = .ok a := by
  cases x <;> simp [Except.isOk, Except.toBool]

/-- A list of steps succeeds with the results of the single steps, in order. -/
theorem mapM_eq_ok {f : α → Except ε β} {xs : List α} {ys : List β} :
    xs.mapM f = .ok ys ↔ List.Forall₂ (fun x y => f x = .ok y) xs ys := by
  induction xs generalizing ys with
  | nil =>
    rw [List.mapM_nil, List.forall₂_nil_left_iff]
    exact ⟨fun h => (Except.ok.inj h).symm, fun h => h ▸ rfl⟩
  | cons x xs ih =>
    rw [List.mapM_cons, bind_eq_ok, List.forall₂_cons_left_iff]
    constructor
    · rintro ⟨y, hy, h⟩
      obtain ⟨rest, hrest, h⟩ := bind_eq_ok.1 h
      exact ⟨y, rest, hy, ih.1 hrest, (Except.ok.inj h).symm⟩
    · rintro ⟨y, rest, hy, hrest, rfl⟩
      exact ⟨y, hy, bind_eq_ok.2 ⟨rest, ih.2 hrest, rfl⟩⟩

/-- The same for steps that fail without an error. -/
theorem mapM_eq_some {f : α → Option β} {xs : List α} {ys : List β} :
    xs.mapM f = some ys ↔ List.Forall₂ (fun x y => f x = some y) xs ys := by
  induction xs generalizing ys with
  | nil =>
    rw [List.mapM_nil, List.forall₂_nil_left_iff]
    exact ⟨fun h => (Option.some.inj h).symm, fun h => h ▸ rfl⟩
  | cons x xs ih =>
    rw [List.mapM_cons, List.forall₂_cons_left_iff]
    constructor
    · intro h
      obtain ⟨y, hy, h⟩ := Option.bind_eq_some_iff.1 h
      obtain ⟨rest, hrest, h⟩ := Option.bind_eq_some_iff.1 h
      exact ⟨y, rest, hy, ih.1 hrest, (Option.some.inj h).symm⟩
    · rintro ⟨y, rest, hy, hrest, rfl⟩
      exact Option.bind_eq_some_iff.2 ⟨y, hy, Option.bind_eq_some_iff.2 ⟨rest, ih.2 hrest, rfl⟩⟩

theorem exists_mapM_eq_some_iff {f : α → Option β} {xs : List α} :
    (∃ ys, xs.mapM f = some ys) ↔ ∀ x ∈ xs, ∃ y, f x = some y := by
  simp only [mapM_eq_some]
  induction xs with
  | nil => exact ⟨fun _ => List.forall_mem_nil _, fun _ => ⟨[], .nil⟩⟩
  | cons x xs ih =>
    rw [List.forall_mem_cons, ← ih]
    constructor
    · rintro ⟨_, h⟩
      cases h with
      | cons hy hrest => exact ⟨⟨_, hy⟩, ⟨_, hrest⟩⟩
    · rintro ⟨⟨y, hy⟩, rest, hrest⟩
      exact ⟨y :: rest, .cons hy hrest⟩

/-- A list of steps fails with the error of the first one that fails. -/
theorem first_of_mapM_eq_error {f : α → Except ε β} {xs : List α} {e : ε}
    (h : xs.mapM f = .error e) :
    ∃ front x back, xs = front ++ x :: back ∧ (∀ y ∈ front, ∃ b, f y = .ok b) ∧
      f x = .error e := by
  induction xs with
  | nil => cases h
  | cons x xs ih =>
    rw [List.mapM_cons] at h
    rcases bind_eq_error.1 h with h | ⟨b, hb, h⟩
    · exact ⟨[], x, xs, rfl, List.forall_mem_nil _, h⟩
    · rcases bind_eq_error.1 h with h | ⟨_, _, h⟩
      · obtain ⟨front, x', back, rfl, hfront, hx'⟩ := ih h
        exact ⟨x :: front, x', back, rfl, List.forall_mem_cons.2 ⟨⟨b, hb⟩, hfront⟩, hx'⟩
      · cases h

theorem exists_of_mapM_eq_error {f : α → Except ε β} {xs : List α} {e : ε}
    (h : xs.mapM f = .error e) : ∃ x ∈ xs, f x = .error e := by
  obtain ⟨front, x, back, rfl, -, hx⟩ := first_of_mapM_eq_error h
  exact ⟨x, List.mem_append_right _ List.mem_cons_self, hx⟩

theorem mem_of_mapM_eq_ok {f : α → Except ε β} {xs : List α} {ys : List β}
    (h : xs.mapM f = .ok ys) {y : β} : y ∈ ys ↔ ∃ x ∈ xs, f x = .ok y := by
  have hall := mapM_eq_ok.1 h
  clear h
  induction hall with
  | nil => simp
  | @cons x y' xs ys hxy _ ih =>
    have hrest : y ∈ ys ↔ ∃ x ∈ xs, f x = .ok y := ih
    rw [List.mem_cons, hrest]
    constructor
    · rintro (rfl | ⟨x', hx', hy⟩)
      · exact ⟨x, List.mem_cons_self, hxy⟩
      · exact ⟨x', List.mem_cons_of_mem _ hx', hy⟩
    · rintro ⟨x', hx', hy⟩
      rcases List.mem_cons.1 hx' with rfl | hx'
      · exact .inl (Except.ok.inj (hy.symm.trans hxy))
      · exact .inr ⟨x', hx', hy⟩

/-- Steps that undo a function succeed on what the function has made. -/
theorem mapM_eq_ok_iff_map {f : α → Except ε β} {g : β → α} (hfg : ∀ x y, f x = .ok y ↔ x = g y)
    {xs : List α} {ys : List β} : xs.mapM f = .ok ys ↔ xs = ys.map g := by
  simp only [mapM_eq_ok, hfg]
  rw [← List.forall₂_eq_eq_eq, List.forall₂_map_right_iff]

theorem optionMapM_eq_ok_iff_map {f : α → Except ε β} {g : β → α}
    (hfg : ∀ x y, f x = .ok y ↔ x = g y) {x : Option α} {y : Option β} :
    x.mapM f = .ok y ↔ x = y.map g := by
  cases x with
  | none =>
    rw [show (none : Option α).mapM f = .ok none from rfl]
    cases y <;> simp
  | some a =>
    rw [show (some a).mapM f = (f a).map some from rfl, map_eq_ok]
    cases y <;> simp [hfg]

theorem exists_of_optionMapM_eq_error {f : α → Except ε β} {x : Option α} {e : ε}
    (h : x.mapM f = .error e) : ∃ a, x = some a ∧ f a = .error e := by
  cases x with
  | none => cases h
  | some a => exact ⟨a, rfl, map_eq_error.1 h⟩

theorem optionRel_symm {R : α → α → Prop} (hR : ∀ {a b : α}, R a b → R b a) {x y : Option α}
    (h : Option.Rel R x y) : Option.Rel R y x := by
  cases h with
  | none => exact .none
  | some hrel => exact .some (hR hrel)

theorem map_eq_of_optionRel {γ : Type} {R : α → β → Prop} {f : α → γ} {g : β → γ} {x : Option α}
    {y : Option β} (h : Option.Rel R x y) (hR : ∀ x y, R x y → f x = g y) : x.map f = y.map g := by
  cases h with
  | none => rfl
  | some hrel => rw [Option.map_some, Option.map_some, hR _ _ hrel]

/-- A member of the first list stands over against one of the second. -/
theorem exists_of_mem_forall₂ {R : α → β → Prop} {xs : List α} {ys : List β}
    (h : List.Forall₂ R xs ys) {x : α} (hx : x ∈ xs) : ∃ y ∈ ys, R x y := by
  induction h with
  | nil => cases hx
  | @cons x' y xs ys hxy _ ih =>
    rcases List.mem_cons.1 hx with rfl | hx
    · exact ⟨y, List.mem_cons_self, hxy⟩
    · obtain ⟨y, hy, hrelated⟩ := ih hx
      exact ⟨y, List.mem_cons_of_mem _ hy, hrelated⟩

/-- What the members of two lists have in common, member by member. -/
theorem map_eq_of_forall₂ {γ : Type} {R : α → β → Prop} {f : α → γ} {g : β → γ}
    {xs : List α} {ys : List β} (h : List.Forall₂ R xs ys) (hR : ∀ x y, R x y → f x = g y) :
    xs.map f = ys.map g := by
  rw [← List.forall₂_eq_eq_eq, List.forall₂_map_left_iff, List.forall₂_map_right_iff]
  exact h.imp hR

/-- Members that stand over against each other have another relation if all such members do. -/
theorem forall₂_imp_of_mem {R S : α → β → Prop} {xs : List α} {ys : List β}
    (h : ∀ x ∈ xs, ∀ y ∈ ys, R x y → S x y) (hall : List.Forall₂ R xs ys) :
    List.Forall₂ S xs ys := by
  rw [List.forall₂_iff_zip] at hall ⊢
  refine ⟨hall.1, fun hzip => ?_⟩
  obtain ⟨hx, hy⟩ := List.of_mem_zip hzip
  exact h _ hx _ hy (hall.2 hzip)

/-- Two kinds of steps, taken over one list: what holds of the results of each member. -/
theorem forall₂_of_mapM_eq_ok {γ : Type} {f : α → Except ε β} {g : α → Except ε γ}
    {R : β → γ → Prop} (hR : ∀ x y z, f x = .ok y → g x = .ok z → R y z) {xs : List α}
    {ys : List β} {zs : List γ} (hf : xs.mapM f = .ok ys) (hg : xs.mapM g = .ok zs) :
    List.Forall₂ R ys zs := by
  replace hf := mapM_eq_ok.1 hf
  replace hg := mapM_eq_ok.1 hg
  induction hf generalizing zs with
  | nil =>
    cases hg
    exact .nil
  | cons hy _ ih =>
    cases hg with
    | cons hz hrest => exact .cons (hR _ _ _ hy hz) (ih hrest)

theorem exists_of_mem_mapM {f : α → Except ε β} {xs : List α} {ys : List β}
    (h : xs.mapM f = .ok ys) {x : α} (hx : x ∈ xs) : ∃ y, f x = .ok y := by
  obtain ⟨y, -, hy⟩ := exists_of_mem_forall₂ (mapM_eq_ok.1 h) hx
  exact ⟨y, hy⟩

/-- A list of steps succeeds when each of them does. -/
theorem exists_mapM_eq_ok {f : α → Except ε β} {xs : List α} (h : ∀ x ∈ xs, ∃ y, f x = .ok y) :
    ∃ ys, xs.mapM f = .ok ys := by
  cases hxs : xs.mapM f with
  | ok ys => exact ⟨ys, rfl⟩
  | error e =>
    obtain ⟨x, hx, herror⟩ := exists_of_mapM_eq_error hxs
    obtain ⟨y, hy⟩ := h x hx
    rw [hy] at herror
    cases herror

end PackagePlan.Outcome
