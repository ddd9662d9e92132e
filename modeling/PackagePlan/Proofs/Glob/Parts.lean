/-
  The parts of a glob, as they are written and as they match. `Spells` says how a text spells parts,
  and reading a text succeeds only on what spells the parts that it gives (`spells_of_tokensFrom`).
  A text that a glob without `**` accepts is shared out among its parts (`accepts_iff_pieces`), and
  only a separator stands for a separator, so the text has as many of them as the glob
  (`count_separator`). A glob without wildcards accepts its own text alone (`accepts_map_char`).
-/
import Mathlib.Data.List.Forall2
import PackagePlan.Glob.Pattern
import PackagePlan.Proofs.Outcome

namespace PackagePlan.Glob

/-! ## How parts are written -/

/-- A character that stands for itself, wherever it is written. -/
def IsLiteral (c : Char) : Prop := c ∉ ['*', '?', '[']

theorem isLiteral_of_not_mem {s : List Char} (hstar : '*' ∉ s) (hmark : '?' ∉ s)
    (hbracket : '[' ∉ s) : ∀ c ∈ s, IsLiteral c := by
  intro c hc
  unfold IsLiteral
  simp only [List.mem_cons, List.not_mem_nil, or_false, not_or]
  exact ⟨ne_of_mem_of_not_mem hc hstar, ne_of_mem_of_not_mem hc hmark,
    ne_of_mem_of_not_mem hc hbracket⟩

/-- How a text spells the parts of a glob. -/
inductive Spells : List Char → List Token → Prop where
  | nil : Spells [] []
  | lastDirectories : Spells ['*', '*'] [.anyDirectories]
  | directories {s : List Char} {tokens : List Token} (h : Spells s tokens) :
    Spells ('*' :: '*' :: '/' :: s) (.anyDirectories :: tokens)
  | run {s : List Char} {tokens : List Token} (h : Spells s tokens) :
    Spells ('*' :: s) (.anyRun :: tokens)
  | any {s : List Char} {tokens : List Token} (h : Spells s tokens) :
    Spells ('?' :: s) (.anyChar :: tokens)
  | bracket {s after : List Char} {token : Token} {tokens : List Token}
    (hclass : classToken? s = some (token, after)) (h : Spells after tokens) :
    Spells ('[' :: s) (token :: tokens)
  | char {c : Char} {s : List Char} {tokens : List Token} (hc : IsLiteral c) (h : Spells s tokens) :
    Spells (c :: s) (.char c :: tokens)

theorem spells_of_tokensFrom {position : Nat} {before : Option Char} {s : List Char}
    {tokens : List Token} (h : tokensFrom position before s = .ok tokens) : Spells s tokens := by
  fun_induction tokensFrom position before s generalizing tokens with
  | case1 =>
    cases h
    exact .nil
  | case2 => cases h
  | case3 => cases h
  | case4 =>
    cases h
    exact .lastDirectories
  | case5 _ _ _ rest _ ih =>
    obtain ⟨others, hothers, rfl⟩ := Outcome.map_eq_ok.1 h
    exact .directories (ih hothers)
  | case6 => cases h
  | case7 _ _ rest _ _ ih =>
    obtain ⟨others, hothers, rfl⟩ := Outcome.map_eq_ok.1 h
    exact .run (ih hothers)
  | case8 _ _ rest ih =>
    obtain ⟨others, hothers, rfl⟩ := Outcome.map_eq_ok.1 h
    exact .any (ih hothers)
  | case9 => cases h
  | case10 _ _ rest token after hclass ih =>
    obtain ⟨others, hothers, rfl⟩ := Outcome.map_eq_ok.1 h
    exact .bracket hclass (ih hothers)
  | case11 _ _ c rest _ _ hstar hmark hbracket ih =>
    obtain ⟨others, hothers, rfl⟩ := Outcome.map_eq_ok.1 h
    refine .char ?_ (ih hothers)
    unfold IsLiteral
    simp only [List.mem_cons, List.not_mem_nil, or_false, not_or]
    exact ⟨hstar, hmark, hbracket⟩

theorem suffix_of_splitFirst? {p : Char → Bool} {s : List Char} {halves : List Char × List Char}
    (h : Text.splitFirst? p s = some halves) : halves.2 <:+ s := by
  induction s generalizing halves with
  | nil => cases h
  | cons c s ih =>
    rw [Text.splitFirst?] at h
    split at h
    · cases h
      exact List.suffix_cons c s
    · obtain ⟨inner, hinner, rfl⟩ := Option.map_eq_some_iff.1 h
      exact (ih hinner).trans (List.suffix_cons c s)

theorem suffix_of_class? {s : List Char} {halves : List Char × List Char}
    (h : class? s = some halves) : halves.2 <:+ s := by
  cases s with
  | nil => cases h
  | cons c s =>
    obtain ⟨inner, hinner, rfl⟩ := Option.map_eq_some_iff.1 h
    exact (suffix_of_splitFirst? hinner).trans (List.suffix_cons c s)

/-- A class is no `**`, and what stands behind it is the end of the text. -/
theorem classToken?_eq_some {s after : List Char} {token : Token}
    (h : classToken? s = some (token, after)) : token ≠ .anyDirectories ∧ after <:+ s := by
  unfold classToken? at h
  split at h
  · obtain ⟨halves, hclass, heq⟩ := Option.map_eq_some_iff.1 h
    cases heq
    exact ⟨by simp, (suffix_of_class? hclass).trans (List.suffix_cons _ _)⟩
  · obtain ⟨halves, hclass, heq⟩ := Option.map_eq_some_iff.1 h
    cases heq
    exact ⟨by simp, suffix_of_class? hclass⟩

namespace Spells

variable {s : List Char} {tokens : List Token}

/-- Only `**` spells the part for whole components. -/
theorem infix_of_anyDirectories (h : Spells s tokens) (hmem : .anyDirectories ∈ tokens) :
    ['*', '*'] <:+: s := by
  induction h with
  | nil => cases hmem
  | lastDirectories => exact List.infix_refl _
  | directories => exact ⟨[], _, rfl⟩
  | run _ ih | any _ ih | char _ _ ih =>
    have hrest := (List.mem_cons.1 hmem).resolve_left (by simp)
    exact (ih hrest).trans (List.suffix_cons _ _).isInfix
  | bracket hclass _ ih =>
    obtain ⟨hne, hafter⟩ := classToken?_eq_some hclass
    have hrest := (List.mem_cons.1 hmem).resolve_left hne.symm
    exact (ih hrest).trans (hafter.trans (List.suffix_cons _ _)).isInfix

/-- Where no class is written, every separator of the text is a part, if it is not one of a `**`. -/
theorem count_separator (h : Spells s tokens) (hclass : '[' ∉ s)
    (hmem : .anyDirectories ∉ tokens) : tokens.count (.char '/') = s.count '/' := by
  induction h with
  | nil => rfl
  | lastDirectories => exact absurd List.mem_cons_self hmem
  | directories => exact absurd List.mem_cons_self hmem
  | bracket => exact absurd List.mem_cons_self hclass
  | run _ ih | any _ ih | char _ _ ih =>
    rw [List.count_cons, List.count_cons, ih (List.not_mem_of_not_mem_cons hclass)
      (List.not_mem_of_not_mem_cons hmem)]
    simp

/-- A text of literal characters spells just these. -/
theorem eq_map_char (h : Spells s tokens) (hliteral : ∀ c ∈ s, IsLiteral c) :
    tokens = s.map .char := by
  have hnot : ∀ {c : Char} {rest : List Char}, c ∈ ['*', '?', '['] →
      ¬∀ d ∈ c :: rest, IsLiteral d := fun hc hall => hall _ List.mem_cons_self hc
  induction h with
  | nil => rfl
  | lastDirectories => exact absurd hliteral (hnot (by decide))
  | directories => exact absurd hliteral (hnot (by decide))
  | run => exact absurd hliteral (hnot (by decide))
  | any => exact absurd hliteral (hnot (by decide))
  | bracket => exact absurd hliteral (hnot (by decide))
  | char _ _ ih => rw [List.map_cons, ih (List.forall_mem_cons.1 hliteral).2]

end Spells

/-! ## What parts match -/

/-- The stretches of text that a part can stand for, `**` apart. -/
inductive Token.Spans : Token → List Char → Prop where
  | one {token : Token} {c : Char} (h : token.accepts c = true) : Spans token [c]
  | run {piece : List Char} (h : '/' ∉ piece) : Spans .anyRun piece

/-- Every part but `*` stands for one character. -/
theorem Token.spans_iff {token : Token} (h : token ≠ .anyRun) {piece : List Char} :
    token.Spans piece ↔ ∃ c, token.accepts c = true ∧ piece = [c] := by
  constructor
  · intro hspans
    cases hspans with
    | one haccepts => exact ⟨_, haccepts, rfl⟩
    | run => exact absurd rfl h
  · rintro ⟨c, haccepts, rfl⟩
    exact .one haccepts

/-- Only a separator stands for one. -/
theorem Token.Spans.count_separator {token : Token} {piece : List Char} (h : token.Spans piece) :
    piece.count '/' = [token].count (.char '/') := by
  cases h with
  | one h =>
    rw [List.count_singleton, List.count_singleton]
    cases token <;> grind [Token.accepts]
  | run h => rw [List.count_eq_zero_of_not_mem h, List.count_eq_zero_of_not_mem (by simp)]

theorem mem_afterRun {s rest : List Char} :
    rest ∈ afterRun s ↔ ∃ piece, '/' ∉ piece ∧ s = piece ++ rest := by
  induction s generalizing rest with
  | nil =>
    rw [afterRun, List.mem_singleton]
    constructor
    · rintro rfl
      exact ⟨[], List.not_mem_nil, rfl⟩
    · rintro ⟨piece, -, hsplit⟩
      exact (List.append_eq_nil_iff.1 hsplit.symm).2
  | cons c s ih =>
    rw [afterRun, List.mem_cons]
    constructor
    · rintro (rfl | hrest)
      · exact ⟨[], List.not_mem_nil, rfl⟩
      · split at hrest
        · cases hrest
        · next hc =>
          obtain ⟨piece, hpiece, rfl⟩ := ih.1 hrest
          exact ⟨c :: piece, by simp [hpiece, eq_comm, hc], rfl⟩
    · rintro ⟨piece, hpiece, hsplit⟩
      cases piece with
      | nil => exact .inl hsplit.symm
      | cons first piece =>
        obtain ⟨rfl, hrest⟩ := List.cons.inj hsplit
        rw [List.mem_cons, not_or] at hpiece
        rw [if_neg (Ne.symm hpiece.1)]
        exact .inr (ih.2 ⟨piece, hpiece.2, hrest⟩)

/-- A part other than `**` takes a stretch from the front of a text. -/
theorem accepts_cons_iff {token : Token} (h : token ≠ .anyDirectories) {tokens : List Token}
    {s : List Char} :
    accepts (token :: tokens) s = true ↔
      ∃ piece rest, token.Spans piece ∧ s = piece ++ rest ∧ accepts tokens rest = true := by
  cases token with
  | anyDirectories => exact absurd rfl h
  | anyRun =>
    rw [accepts, List.any_eq_true]
    simp only [mem_afterRun]
    constructor
    · rintro ⟨rest, ⟨piece, hpiece, hsplit⟩, hrest⟩
      exact ⟨piece, rest, .run hpiece, hsplit, hrest⟩
    · rintro ⟨piece, rest, hspans, hsplit, hrest⟩
      cases hspans with
      | one haccepts => cases haccepts
      | run hpiece => exact ⟨rest, ⟨piece, hpiece, hsplit⟩, hrest⟩
  | char | anyChar | within | except =>
    simp (disch := simp) only [Token.spans_iff]
    cases s with
    | nil => simp [accepts]
    | cons c s => simp [accepts, and_assoc]

/-- A glob without `**` accepts the texts that can be shared out among its parts. -/
theorem accepts_iff_pieces {tokens : List Token} (h : .anyDirectories ∉ tokens) {s : List Char} :
    accepts tokens s = true ↔
      ∃ pieces, List.Forall₂ Token.Spans tokens pieces ∧ s = pieces.flatten := by
  induction tokens generalizing s with
  | nil =>
    rw [accepts, List.isEmpty_iff]
    constructor
    · rintro rfl
      exact ⟨[], .nil, rfl⟩
    · rintro ⟨_, ⟨⟩, rfl⟩
      rfl
  | cons token tokens ih =>
    rw [List.mem_cons, not_or] at h
    obtain ⟨htoken, htokens⟩ := h
    rw [accepts_cons_iff (Ne.symm htoken)]
    constructor
    · rintro ⟨piece, rest, hspans, rfl, hrest⟩
      obtain ⟨pieces, hpieces, rfl⟩ := (ih htokens).1 hrest
      exact ⟨piece :: pieces, .cons hspans hpieces, rfl⟩
    · rintro ⟨_, _ | ⟨hspans, hpieces⟩, rfl⟩
      exact ⟨_, _, hspans, rfl, (ih htokens).2 ⟨_, hpieces, rfl⟩⟩

/-- A text that is accepted has as many separators as the glob. -/
theorem count_separator {tokens : List Token} (h : .anyDirectories ∉ tokens) {s : List Char}
    (haccepts : accepts tokens s = true) : s.count '/' = tokens.count (.char '/') := by
  obtain ⟨pieces, hpieces, rfl⟩ := (accepts_iff_pieces h).1 haccepts
  clear h haccepts
  induction hpieces with
  | nil => rfl
  | @cons token piece tokens pieces hspans _ ih =>
    rw [List.flatten_cons, List.count_append, hspans.count_separator, ih, ← List.count_append]
    rfl

/-- Parts that stand for themselves accept their own text alone. -/
theorem accepts_map_char {s t : List Char} : accepts (s.map .char) t = true ↔ t = s := by
  induction s generalizing t with
  | nil => rw [List.map_nil, accepts, List.isEmpty_iff]
  | cons c s ih =>
    cases t with
    | nil => simp [accepts]
    | cons d t => simp [accepts, Token.accepts, ih]

end PackagePlan.Glob
