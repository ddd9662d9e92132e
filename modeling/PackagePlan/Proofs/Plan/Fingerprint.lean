/-
  What a fingerprint tells apart. The digested bytes are the texts of a plan one behind the other,
  each led by the byte of its kind, and nothing in a text is escaped. As long as no text holds such
  a byte the bytes can be read in one way only (`Plan.bytes_eq_iff_alike`): a text ends at the next
  tag, and the tag says whether a file, a directory or a target follows. A file name may hold one,
  and then one file passes for two (`Plan.bytes_confuse_files`).
-/
import Mathlib.Data.List.Forall2
import PackagePlan.Plan.Basic
import PackagePlan.Proofs.Plan.Schedules

namespace PackagePlan

/-! ## The bytes of a text -/

theorem toList_loop (bytes : ByteArray) (i : Nat) (front : List UInt8) :
    ByteArray.toList.loop bytes i front = front.reverse ++ bytes.data.toList.drop i := by
  induction i, front using ByteArray.toList.loop.induct bytes with
  | case1 i front hi ih =>
    have hnext : bytes.data.toList.drop i = bytes.get! i :: bytes.data.toList.drop (i + 1) := by
      have hlength : i < bytes.data.toList.length := by simpa using hi
      rw [List.drop_eq_getElem_cons hlength]
      simp [ByteArray.get!, hi]
    rw [ByteArray.toList.loop, if_pos hi, ih, hnext, List.reverse_cons, List.append_assoc]
    rfl
  | case2 i front hi =>
    have hend : bytes.data.toList.drop i = [] := List.drop_of_length_le (by simpa using hi)
    rw [ByteArray.toList.loop, if_neg hi, hend, List.append_nil]

theorem textBytes_eq_data (text : String) : textBytes text = text.toByteArray.data.toList :=
  toList_loop text.toByteArray 0 []

theorem textBytes_injective {a b : String} (h : textBytes a = textBytes b) : a = b := by
  rw [textBytes_eq_data, textBytes_eq_data] at h
  exact String.toByteArray_inj.1 (ByteArray.ext (Array.toList_inj.1 h))

theorem toNat_of_mem_utf8EncodeChar {c : Char} {byte : UInt8}
    (h : byte ∈ String.utf8EncodeChar c) (hlow : byte.toNat < 128) :
    c.val.toNat = byte.toNat := by
  have hbyte : ∀ n, 128 ≤ n → n < 256 → byte ≠ UInt8.ofNat n := by
    rintro n hn hlt rfl
    rw [UInt8.toNat_ofNat', Nat.mod_eq_of_lt hlt] at hlow
    omega
  unfold String.utf8EncodeChar at h
  dsimp only at h
  split at h
  · obtain rfl := List.mem_singleton.1 h
    rw [UInt8.toNat_ofNat']
    omega
  -- In an encoding of several bytes every byte has its highest bit set.
  split at h
  · simp only [List.mem_cons, List.not_mem_nil, or_false] at h
    rcases h with h | h <;> exact absurd h (hbyte _ (by omega) (by omega))
  split at h
  · simp only [List.mem_cons, List.not_mem_nil, or_false] at h
    rcases h with h | h | h <;> exact absurd h (hbyte _ (by omega) (by omega))
  · simp only [List.mem_cons, List.not_mem_nil, or_false] at h
    rcases h with h | h | h | h <;> exact absurd h (hbyte _ (by omega) (by omega))

/-- A byte below 128 stands for the character of that code, and for no part of another. -/
theorem exists_char_of_mem_textBytes {text : String} {byte : UInt8} (h : byte ∈ textBytes text)
    (hlow : byte.toNat < 128) : ∃ c ∈ text.toList, c.val.toNat = byte.toNat := by
  have hbytes : textBytes text = text.toList.flatMap String.utf8EncodeChar := by
    rw [textBytes_eq_data, ← String.utf8Encode_toList]
    exact List.toList_data_toByteArray
  rw [hbytes] at h
  obtain ⟨c, hc, hbyte⟩ := List.mem_flatMap.1 h
  exact ⟨c, hc, toNat_of_mem_utf8EncodeChar hbyte hlow⟩

/-! ## Texts behind tags -/

/-- The bytes are at their end or go on with a tag. -/
def Led (tags bytes : List UInt8) : Prop := ∀ byte ∈ bytes.head?, byte ∈ tags

/-- The text holds no character with one of the codes. -/
def Clear (codes : List UInt8) (text : String) : Prop :=
  ∀ c ∈ text.toList, ∀ code ∈ codes, c.val.toNat ≠ code.toNat

instance (codes : List UInt8) (text : String) : Decidable (Clear codes text) :=
  decidable_of_iff
    ((text.toList.all fun c => codes.all fun code => c.val.toNat != code.toNat) = true)
    (by simp [Clear])

theorem Clear.bytes {codes tags : List UInt8} {text : String} (h : Clear codes text)
    (htags : ∀ tag ∈ tags, tag ∈ codes ∧ tag.toNat < 128) :
    ∀ byte ∈ textBytes text, byte ∉ tags := by
  intro byte hbyte htag
  obtain ⟨hcode, hlow⟩ := htags byte htag
  obtain ⟨c, hc, hval⟩ := exists_char_of_mem_textBytes hbyte hlow
  exact h c hc byte hcode hval

section
variable {tags : List UInt8}

/-- Bytes without tags end where the first tag stands. -/
theorem append_inj_of_led {xs ys rest more : List UInt8} (hxs : ∀ x ∈ xs, x ∉ tags)
    (hys : ∀ y ∈ ys, y ∉ tags) (hrest : Led tags rest) (hmore : Led tags more)
    (h : xs ++ rest = ys ++ more) : xs = ys ∧ rest = more := by
  induction xs generalizing ys with
  | nil =>
    cases ys with
    | nil => exact ⟨rfl, h⟩
    | cons y ys =>
      rw [List.nil_append] at h
      exact absurd (hrest y (by simp [h])) (hys y List.mem_cons_self)
  | cons x xs ih =>
    cases ys with
    | nil =>
      rw [List.nil_append] at h
      exact absurd (hmore x (by simp [← h])) (hxs x List.mem_cons_self)
    | cons y ys =>
      obtain ⟨rfl, htail⟩ := List.cons.inj h
      obtain ⟨rfl, rfl⟩ := ih (List.forall_mem_cons.1 hxs).2 (List.forall_mem_cons.1 hys).2 htail
      exact ⟨rfl, rfl⟩

theorem text_append_inj {a b : String} {rest more : List UInt8}
    (ha : ∀ byte ∈ textBytes a, byte ∉ tags) (hb : ∀ byte ∈ textBytes b, byte ∉ tags)
    (hrest : Led tags rest) (hmore : Led tags more)
    (h : textBytes a ++ rest = textBytes b ++ more) : a = b ∧ rest = more := by
  obtain ⟨htext, rfl⟩ := append_inj_of_led ha hb hrest hmore h
  exact ⟨textBytes_injective htext, rfl⟩

theorem led_tagged {tag : UInt8} (texts : List String) {rest : List UInt8}
    (hrest : Led tags rest) : Led (tag :: tags) (texts.flatMap (taggedBytes tag) ++ rest) := by
  cases texts with
  | nil => exact fun byte hbyte => List.mem_cons_of_mem _ (hrest byte hbyte)
  | cons text texts =>
    intro byte hbyte
    obtain rfl : tag = byte := by simpa [taggedBytes] using hbyte
    exact List.mem_cons_self

/-- Texts behind one tag can be told apart as long as what follows is led by others. -/
theorem tagged_append_inj {tag : UInt8} (htag : tag ∉ tags) {xs ys : List String}
    {rest more : List UInt8} (hxs : ∀ x ∈ xs, ∀ byte ∈ textBytes x, byte ∉ tag :: tags)
    (hys : ∀ y ∈ ys, ∀ byte ∈ textBytes y, byte ∉ tag :: tags) (hrest : Led tags rest)
    (hmore : Led tags more)
    (h : xs.flatMap (taggedBytes tag) ++ rest = ys.flatMap (taggedBytes tag) ++ more) :
    xs = ys ∧ rest = more := by
  induction xs generalizing ys with
  | nil =>
    cases ys with
    | nil => exact ⟨rfl, h⟩
    | cons y ys =>
      have hhead : tag ∈ rest.head? := by
        rw [List.flatMap_nil, List.nil_append] at h
        simp [h, taggedBytes]
      exact absurd (hrest tag hhead) htag
  | cons x xs ih =>
    cases ys with
    | nil =>
      have hhead : tag ∈ more.head? := by
        rw [List.flatMap_nil, List.nil_append] at h
        simp [← h, taggedBytes]
      exact absurd (hmore tag hhead) htag
    | cons y ys =>
      simp only [List.flatMap_cons, taggedBytes, List.cons_append, List.append_assoc,
        List.cons.injEq, true_and] at h
      obtain ⟨hx, hxrest⟩ := List.forall_mem_cons.1 hxs
      obtain ⟨hy, hyrest⟩ := List.forall_mem_cons.1 hys
      obtain ⟨rfl, htail⟩ := text_append_inj hx hy (led_tagged xs hrest) (led_tagged ys hmore) h
      obtain ⟨rfl, rfl⟩ := ih hxrest hyrest htail
      exact ⟨rfl, rfl⟩

end

/-! ## Targets -/

/-- The two targets are digested alike: one name, the same files and the same include
    directories, in order. -/
structure PlannedTarget.Alike (a b : PlannedTarget) : Prop where
  name : a.name = b.name
  files : a.sources.files = b.sources.files
  includeDirs : a.includeDirs = b.includeDirs

/-- No text that is digested for the target holds a tag that could be taken for the end of it. -/
structure PlannedTarget.Untagged (target : PlannedTarget) : Prop where
  name : Clear [0, 1, 2] target.name
  file : ∀ file ∈ target.sources.files, Clear [0, 1, 2] file.text
  /-- No file follows a directory, so that the tag of files ends none. -/
  dir : ∀ dir ∈ target.includeDirs, Clear [0, 2] dir.text

theorem Path.map_text_injective {xs ys : List Path} (h : xs.map Path.text = ys.map Path.text) :
    xs = ys :=
  List.map_injective_iff.2 (fun a b htext => by cases a; cases b; simp_all) h

namespace PlannedTarget

theorem bytes_eq (target : PlannedTarget) :
    target.bytes = taggedBytes 0 target.name
      ++ ((target.sources.files.map Path.text).flatMap (taggedBytes 1)
      ++ (target.includeDirs.map Path.text).flatMap (taggedBytes 2)) := by
  rw [PlannedTarget.bytes, List.flatMap_map, List.flatMap_map, List.append_assoc]

theorem Alike.bytes_eq {a b : PlannedTarget} (h : a.Alike b) : a.bytes = b.bytes := by
  rw [a.bytes_eq, b.bytes_eq, h.name, h.files, h.includeDirs]

namespace Untagged

variable {a b : PlannedTarget} {rest more : List UInt8}

theorem clear_files (h : a.Untagged) :
    ∀ text ∈ a.sources.files.map Path.text, ∀ byte ∈ textBytes text, byte ∉ [1, 2, 0] :=
  List.forall_mem_map.2 fun file hfile => (h.file file hfile).bytes (by simp)

theorem clear_dirs (h : a.Untagged) :
    ∀ text ∈ a.includeDirs.map Path.text, ∀ byte ∈ textBytes text, byte ∉ [2, 0] :=
  List.forall_mem_map.2 fun dir hdir => (h.dir dir hdir).bytes (by simp)

/-- The bytes of a target end where the next target begins. -/
theorem append_inj (ha : a.Untagged) (hb : b.Untagged) (hrest : Led [0] rest)
    (hmore : Led [0] more) (h : a.bytes ++ rest = b.bytes ++ more) : a.Alike b ∧ rest = more := by
  rw [a.bytes_eq, b.bytes_eq] at h
  simp only [taggedBytes, List.cons_append, List.append_assoc, List.cons.injEq, true_and] at h
  have hdirs : Led [2, 0] ((a.includeDirs.map Path.text).flatMap (taggedBytes 2) ++ rest) :=
    led_tagged _ hrest
  have hdirs' : Led [2, 0] ((b.includeDirs.map Path.text).flatMap (taggedBytes 2) ++ more) :=
    led_tagged _ hmore
  obtain ⟨hname, h⟩ := text_append_inj (ha.name.bytes (by simp)) (hb.name.bytes (by simp))
    (led_tagged _ hdirs) (led_tagged _ hdirs') h
  obtain ⟨hfiles, h⟩ := tagged_append_inj (by decide) ha.clear_files hb.clear_files hdirs hdirs' h
  obtain ⟨hincludes, h⟩ := tagged_append_inj (by decide) ha.clear_dirs hb.clear_dirs hrest hmore h
  exact ⟨⟨hname, Path.map_text_injective hfiles, Path.map_text_injective hincludes⟩, h⟩

end Untagged

end PlannedTarget

/-! ## Plans -/

/-- The two plans are digested alike. -/
structure Plan.Alike (plan other : Plan) : Prop where
  variant : plan.variant = other.variant
  targets : List.Forall₂ PlannedTarget.Alike plan.targets other.targets

/-- No text that is digested for the plan holds a tag that could be taken for the end of it. -/
structure Plan.Untagged (plan : Plan) : Prop where
  variant : Clear [0] plan.variant
  target : ∀ target ∈ plan.targets, target.Untagged

/-- The bytes that the fingerprint of the plan digests. -/
def Plan.bytes (plan : Plan) : List UInt8 := fingerprintBytes plan.variant plan.targets

theorem Plan.fingerprint_eq (plan : Plan) : plan.fingerprint = Sha256.render plan.bytes := rfl

theorem led_targets (targets : List PlannedTarget) :
    Led [0] (targets.flatMap PlannedTarget.bytes) := by
  cases targets with
  | nil => exact fun _ hbyte => nomatch hbyte
  | cons target rest =>
    intro byte hbyte
    rw [List.flatMap_cons, target.bytes_eq] at hbyte
    obtain rfl : 0 = byte := by simpa [taggedBytes] using hbyte
    exact List.mem_singleton_self _

theorem alike_of_targets_bytes {xs ys : List PlannedTarget} (hxs : ∀ x ∈ xs, x.Untagged)
    (hys : ∀ y ∈ ys, y.Untagged)
    (h : xs.flatMap PlannedTarget.bytes = ys.flatMap PlannedTarget.bytes) :
    List.Forall₂ PlannedTarget.Alike xs ys := by
  induction xs generalizing ys with
  | nil =>
    cases ys with
    | nil => exact .nil
    | cons y ys => simp [PlannedTarget.bytes, taggedBytes] at h
  | cons x xs ih =>
    cases ys with
    | nil => simp [PlannedTarget.bytes, taggedBytes] at h
    | cons y ys =>
      obtain ⟨hx, hxrest⟩ := List.forall_mem_cons.1 hxs
      obtain ⟨hy, hyrest⟩ := List.forall_mem_cons.1 hys
      obtain ⟨halike, htail⟩ := hx.append_inj hy (led_targets xs) (led_targets ys) h
      exact .cons halike (ih hxrest hyrest htail)

theorem targets_bytes_of_alike {xs ys : List PlannedTarget}
    (h : List.Forall₂ PlannedTarget.Alike xs ys) :
    xs.flatMap PlannedTarget.bytes = ys.flatMap PlannedTarget.bytes := by
  rw [List.flatMap_def, List.flatMap_def,
    Outcome.map_eq_of_forall₂ h fun _ _ halike => halike.bytes_eq]

/-! ## One file that passes for two -/

namespace Lone

def target : Target := { name := "t", path := ⟨"t"⟩ }

def graph : Graph := ⟨[target], by decide +kernel, by decide⟩

def descriptor : Descriptor :=
  { package := "lone"
    variant := .implicit
    cLanguageStandard := none
    targets := graph.targets
    products := [] }

def resolver : Resolver := { description := { name := "lone", targets := graph.targets } }

/-- One file, with the tag of files in its name. -/
def joinedTree : Tree :=
  { root := .directory [("t", .directory [("a.c\x01b.c", .file "")])] }

/-- The two files that the name of that one is made of. -/
def splitTree : Tree :=
  { root := .directory [("t", .directory [("a.c", .file ""), ("b.c", .file "")])] }

def singleTree : Tree := { root := .directory [("t", .directory [("a.c", .file "")])] }

/-- The source set of the target when it has the given files. -/
def set (files : List Path) : SourceSet :=
  { target := "t"
    root := ⟨"./t"⟩
    files
    publicDir := none
    publicHeaders := []
    unusedExclusions := [] }

theorem descriptor_graph : descriptor.graph = .ok graph :=
  Descriptor.graph_eq_ok.2 ⟨rfl, by cbv, rfl, by decide +kernel⟩

/-- The target as it is planned with the given files. -/
def planned (files : List Path) : PlannedTarget := .of target (set files) [] [] none

theorem planTargets_set (files : List Path) :
    graph.planTargets none [("t", set files)] {} ["t"] =
      .ok (({} : HeaderIndex).register target (set files) [], [planned files]) := by
  have htarget : graph.require "t" = .ok target := rfl
  have hclosure : graph.closure "t" = .ok [] := by cbv
  have hdirs : (({} : HeaderIndex).register target (set files) []).includeDirs "t" = .ok [] := by
    unfold HeaderIndex.includeDirs
    rw [HeaderIndex.surface?_register, if_pos (show target.name = "t" from rfl)]
    rfl
  rw [Graph.planTargets, htarget, Outcome.ok_bind, List.lookup_cons_self]
  dsimp only
  rw [hclosure, Outcome.ok_bind, hdirs, Outcome.ok_bind]
  rfl

theorem exists_plan {tree : Tree} {files : List Path}
    (h : SourceSet.resolve tree ⟨"."⟩ target = .ok (set files)) :
    ∃ plan, (resolver.resolve tree ⟨1, 0, 0⟩ none).1 = .ok plan ∧
      plan.variant = "default" ∧ plan.targets = [planned files] := by
  have horder : graph.buildOrder = .ok ["t"] := by cbv
  have hwaves : graph.waves = .ok [["t"]] := by cbv
  have hone : graph.sourcesOf tree ⟨"."⟩ target.name = .ok ("t", set files) := by
    have hmem : target ∈ graph.targets := List.mem_singleton_self _
    rw [Graph.sourcesOf_name hmem, h]
    rfl
  have hsources : graph.allSources tree ⟨"."⟩ .sequential [["t"]] = .ok [("t", set files)] := by
    refine Outcome.map_eq_ok.2 ⟨[[("t", set files)]], ?_, rfl⟩
    exact Outcome.mapM_eq_ok.2 (.cons (Outcome.mapM_eq_ok.2 (.cons hone .nil)) .nil)
  obtain ⟨plan, hplan, hvariant, hplans⟩ : ∃ plan,
      descriptor.plan graph tree ⟨"."⟩ .sequential ⟨1, 0, 0⟩ none = .ok plan ∧
        plan.variant = "default" ∧ plan.targets = [planned files] :=
    ⟨_, Outcome.bind_eq_ok.2 ⟨_, horder, Outcome.bind_eq_ok.2 ⟨_, hwaves,
      Outcome.bind_eq_ok.2 ⟨_, hsources, Outcome.bind_eq_ok.2 ⟨_, planTargets_set files, rfl⟩⟩⟩⟩,
      rfl, rfl⟩
  exact ⟨plan, PackageDescription.resolve_eq_ok.2 ⟨descriptor, graph, rfl, rfl, descriptor_graph,
    hplan⟩, hvariant, hplans⟩

theorem resolve_joined :
    SourceSet.resolve joinedTree ⟨"."⟩ target = .ok (set [⟨"a.c\x01b.c"⟩]) := by
  decide +kernel

theorem resolve_split :
    SourceSet.resolve splitTree ⟨"."⟩ target = .ok (set [⟨"a.c"⟩, ⟨"b.c"⟩]) := by
  decide +kernel

theorem resolve_single : SourceSet.resolve singleTree ⟨"."⟩ target = .ok (set [⟨"a.c"⟩]) := by
  decide +kernel

theorem untagged {plan : Plan} {files : List Path} (hvariant : plan.variant = "default")
    (htargets : plan.targets = [planned files])
    (hfiles : ∀ file ∈ files, Clear [0, 1, 2] file.text) : plan.Untagged where
  variant := hvariant ▸ by decide +kernel
  target := by
    rw [htargets]
    have hname : Clear [0, 1, 2] target.name := by decide +kernel
    exact List.forall_mem_singleton.2 ⟨hname, hfiles, fun _ hdir => nomatch hdir⟩

end Lone

/-! ## The main statements -/

/-- Plans without tags in their texts are digested to the same bytes exactly when they are alike:
    one variant, the same names in order, and for each the same files and include directories. If
    their fingerprints agree all the same, the bytes collide. -/
theorem Plan.bytes_eq_iff_alike {plan other : Plan} (h : plan.Untagged) (hother : other.Untagged) :
    (plan.bytes = other.bytes ↔ plan.Alike other) ∧
    (plan.fingerprint = other.fingerprint → plan.Alike other ∨
      plan.bytes ≠ other.bytes ∧ Sha256.render plan.bytes = Sha256.render other.bytes) := by
  have hiff : plan.bytes = other.bytes ↔ plan.Alike other := by
    constructor
    · intro hbytes
      obtain ⟨hvariant, htargets⟩ := text_append_inj (h.variant.bytes (by simp))
        (hother.variant.bytes (by simp)) (led_targets _) (led_targets _) hbytes
      exact ⟨hvariant, alike_of_targets_bytes h.target hother.target htargets⟩
    · rintro ⟨hvariant, htargets⟩
      unfold Plan.bytes fingerprintBytes
      rw [hvariant, targets_bytes_of_alike htargets]
  refine ⟨hiff, fun hsame => ?_⟩
  rw [plan.fingerprint_eq, other.fingerprint_eq] at hsame
  by_cases hbytes : plan.bytes = other.bytes
  · exact .inl (hiff.1 hbytes)
  · exact .inr ⟨hbytes, hsame⟩

theorem Plan.bytes_tell_files_apart : ∃ split single,
    (Lone.resolver.resolve Lone.splitTree ⟨1, 0, 0⟩ none).1 = .ok split ∧
    (Lone.resolver.resolve Lone.singleTree ⟨1, 0, 0⟩ none).1 = .ok single ∧
    split.bytes ≠ single.bytes := by
  obtain ⟨split, hsplit, hvariant, htargets⟩ := Lone.exists_plan Lone.resolve_split
  obtain ⟨single, hsingle, hvariant', htargets'⟩ := Lone.exists_plan Lone.resolve_single
  have hsplitUntagged := Lone.untagged hvariant htargets (by decide +kernel)
  have hsingleUntagged := Lone.untagged hvariant' htargets' (by decide +kernel)
  refine ⟨split, single, hsplit, hsingle, fun hbytes => ?_⟩
  have halike := ((Plan.bytes_eq_iff_alike hsplitUntagged hsingleUntagged).1.1 hbytes).targets
  rw [htargets, htargets'] at halike
  obtain ⟨hfirst, -⟩ := List.forall₂_cons.1 halike
  exact absurd hfirst.files (by decide)

/-- A file name may hold the tag of files, and then two plans of different files are digested to
    the same bytes. -/
theorem Plan.bytes_confuse_files : ∃ joined split,
    (Lone.resolver.resolve Lone.joinedTree ⟨1, 0, 0⟩ none).1 = .ok joined ∧
    (Lone.resolver.resolve Lone.splitTree ⟨1, 0, 0⟩ none).1 = .ok split ∧
    joined.bytes = split.bytes ∧
    joined.targets.map (·.sources.files) = [[⟨"a.c\x01b.c"⟩]] ∧
    split.targets.map (·.sources.files) = [[⟨"a.c"⟩, ⟨"b.c"⟩]] := by
  obtain ⟨joined, hjoined, hvariant, htargets⟩ :=
    Lone.exists_plan Lone.resolve_joined
  obtain ⟨split, hsplit, hvariant', htargets'⟩ :=
    Lone.exists_plan Lone.resolve_split
  refine ⟨joined, split, hjoined, hsplit, ?_, ?_, ?_⟩
  · unfold Plan.bytes
    rw [hvariant, hvariant', htargets, htargets']
    decide +kernel
  · rw [htargets]
    rfl
  · rw [htargets']
    rfl

end PackagePlan
