/-
  Records that are written as tables and read again. A record is written slot by slot, and read
  from a table that holds the same values in another order, so all that matters of a slot is
  whether its own value is restored (`Restores`): the checks of the fields pass (`of_present`), and
  each field is what was written, or its default when nothing was.
-/
import PackagePlan.Proofs.Catalog
import PackagePlan.Proofs.Outcome
import PackagePlan.Proofs.Toml.Document
import PackagePlan.Toml.Decode

namespace PackagePlan.Toml

open Outcome (bind_eq_ok map_eq_ok mapM_eq_ok)

theorem lookup_of_mem {α : Type} {entries : List (String × α)} (h : (entries.map (·.1)).Nodup)
    {name : String} {value : α} (hmem : (name, value) ∈ entries) :
    entries.lookup name = some value := by
  induction entries with
  | nil => cases hmem
  | cons entry entries ih =>
    obtain ⟨hfirst, hrest⟩ := List.nodup_cons.1 h
    rcases List.mem_cons.1 hmem with rfl | hmem
    · exact List.lookup_cons_self
    · have hne : name ≠ entry.1 := by
        rintro rfl
        exact hfirst (List.mem_map.2 ⟨_, hmem, rfl⟩)
      rw [List.lookup_cons, beq_false_of_ne hne, ih hrest hmem]

/-! ## Arranged tables -/

theorem arranged_of_isLine {v : Value} (h : v.isLine = true) : v.arranged = v := by
  cases v with
  | string s => rfl
  | array items =>
    rw [Value.arranged, arrangedItems_eq]
    have hitems : items.map Value.arranged = items.map id := by
      refine List.map_congr_left fun item hitem => ?_
      obtain ⟨s, rfl⟩ := Value.exists_of_isText (List.all_eq_true.1 h item hitem)
      rfl
    rw [hitems, List.map_id]
  | _ => cases h

theorem arrangedBlocks_eq (entries : Table) : arrangedBlocks entries =
    (entries.filter fun entry => entry.2.isBlock).map fun entry => (entry.1, entry.2.arranged) := by
  induction entries with
  | nil => rfl
  | cons entry entries ih =>
    obtain ⟨name, value⟩ := entry
    rw [arrangedBlocks, ih, List.filter_cons]
    split <;> rfl

/-- A table of encoded values is arranged by putting the values themselves in another order. -/
theorem exists_arrange {α : Type} {room : Nat} (encode : α → Value) {items : List (String × α)}
    (h : ∀ item ∈ items, (encode item.2).IsWritable room) :
    ∃ moved : List (String × α), moved.Perm items ∧
      arrange (items.map fun item => (item.1, encode item.2)) =
        moved.map fun item => (item.1, (encode item.2).arranged) := by
  refine ⟨items.filter (fun item => !(encode item.2).isBlock) ++
    items.filter (fun item => (encode item.2).isBlock), ?_, ?_⟩
  · exact List.perm_append_comm.trans (List.filter_append_perm _ items)
  · have hlines : (items.filter fun item => !(encode item.2).isBlock).map
          (fun item => (item.1, encode item.2)) =
        (items.filter fun item => !(encode item.2).isBlock).map
          (fun item => (item.1, (encode item.2).arranged)) := by
      refine List.map_congr_left fun item hitem => ?_
      obtain ⟨hmem, hblock⟩ := List.mem_filter.1 hitem
      rw [arranged_of_isLine (isLine_of_isWritable (h item hmem) (by simpa using hblock))]
    unfold arrange
    rw [arrangedBlocks_eq, List.filter_map, List.filter_map, List.map_append, List.map_map,
      ← hlines]
    rfl

/-! ## Lists and catalogs -/

theorem listOf_array {α : Type} {encode : α → Value} {decode : Decoder α} (items : List α)
    (h : ∀ item ∈ items, decode (encode item).arranged = .ok item) :
    listOf decode (Value.array (items.map encode)).arranged = .ok items := by
  show ((arrangedItems (items.map encode)).mapM decode) = .ok items
  rw [arrangedItems_eq, List.map_map, mapM_eq_ok, List.forall₂_map_left_iff, List.forall₂_same]
  exact h

theorem isLine_texts (items : List String) : (texts items).isLine = true := by
  show (items.map Value.string).all Value.isText = true
  rw [List.all_map, List.all_eq_true]
  exact fun _ _ => rfl

theorem isWritable_texts (room : Nat) (items : List String) : (texts items).IsWritable room :=
  .line (isLine_texts items)

theorem listOf_texts (items : List String) : listOf text (texts items).arranged = .ok items :=
  listOf_array items fun _ _ => rfl

section

variable {α : Type} {room : Nat} {encode : α → Value} (c : Catalog String α)
  (hwritable : ∀ entry ∈ c.entries, (encode entry.2).IsWritable room)

include hwritable

theorem isWritable_tableOf : (tableOf encode c.entries).IsWritable (room + 1) := by
  refine .table ?_ fun entry hentry => ?_
  · rw [List.map_map]
    exact c.nodup_keys
  · obtain ⟨item, hitem, rfl⟩ := List.mem_map.1 hentry
    exact hwritable item hitem

/-- A catalog is read back, in whichever order its entries are written. -/
theorem catalogOf_tableOf {decode : Decoder α}
    (h : ∀ entry ∈ c.entries, decode (encode entry.2).arranged = .ok entry.2) :
    catalogOf decode (tableOf encode c.entries).arranged = .ok c := by
  obtain ⟨moved, hperm, harrange⟩ := exists_arrange encode hwritable
  have hentries : ∀ items : List (String × α), (∀ item ∈ items, item ∈ c.entries) →
      entriesOf decode (items.map fun item => (item.1, (encode item.2).arranged)) =
        .ok items := by
    intro items hitems
    induction items with
    | nil => rfl
    | cons item items ih =>
      obtain ⟨hitem, hitems⟩ := List.forall_mem_cons.1 hitems
      refine bind_eq_ok.2 ⟨item.2, h item hitem, bind_eq_ok.2 ⟨items, ih hitems, rfl⟩⟩
  have hcatalog : Catalog.ofList moved = c := Catalog.ofList_of_perm hperm
  unfold tableOf catalogOf
  rw [arranged_table, harrange]
  show (entriesOf decode _).map Catalog.ofList = _
  rw [hentries moved fun item => hperm.mem_iff.1]
  exact congrArg Except.ok hcatalog

end

/-! ## Records -/

/-- Whether the value of a slot, if it has one, is read back. -/
def IsSlot (room : Nat) (value? : Option Value) : Prop := ∀ v ∈ value?, v.IsWritable room

theorem isSlot_text (room : Nat) (s : String) : IsSlot room (some (.string s)) := by
  rintro v ⟨⟩
  exact .line rfl

theorem isSlot_some {room : Nat} {v : Value} (h : v.IsWritable room) : IsSlot room (some v) := by
  rintro v ⟨⟩
  exact h

theorem isSlot_unlessEmpty {room : Nat} {empty : Bool} {v : Value} (h : v.IsWritable room) :
    IsSlot room (unlessEmpty empty v) := by
  unfold unlessEmpty
  split
  · rintro v ⟨⟩
  · exact isSlot_some h

theorem isSlot_texts? (room : Nat) (items : List String) : IsSlot room (texts? items) :=
  isSlot_unlessEmpty (isWritable_texts room items)

theorem isSlot_map {α : Type} {room : Nat} {encode : α → Value} {a? : Option α}
    (h : ∀ a, (encode a).IsWritable room) : IsSlot room (a?.map encode) := by
  intro v hv
  obtain ⟨a, -, rfl⟩ := Option.map_eq_some_iff.1 hv
  exact h a

/-- Slots with names of their own whose values are read back. -/
structure IsRecord (room : Nat) (slots : List (String × Option Value)) : Prop where
  nodup : (slots.map (·.1)).Nodup
  writable : ∀ slot ∈ slots, IsSlot room slot.2

theorem mem_present {slots : List (String × Option Value)} {entry : String × Value} :
    entry ∈ present slots ↔ (entry.1, some entry.2) ∈ slots := by
  obtain ⟨name, value⟩ := entry
  unfold present
  rw [List.mem_filterMap]
  constructor
  · rintro ⟨⟨other, value?⟩, hmem, heq⟩
    obtain ⟨v, hv, hpair⟩ := Option.map_eq_some_iff.1 heq
    cases hpair
    rw [show value? = some value from hv] at hmem
    exact hmem
  · exact fun hmem => ⟨(name, some value), hmem, rfl⟩

section

variable {room : Nat} {slots : List (String × Option Value)} (h : IsRecord room slots)

include h

theorem nodup_present : ((present slots).map (·.1)).Nodup := by
  have hsublist : ((present slots).map (·.1)).Sublist (slots.map (·.1)) := by
    clear h
    induction slots with
    | nil => exact List.Sublist.slnil
    | cons slot slots ih =>
      obtain ⟨name, value?⟩ := slot
      cases value? with
      | none => exact ih.cons name
      | some v => exact ih.cons_cons name
  exact hsublist.nodup h.nodup

theorem isWritable_of_mem_present {entry : String × Value} (hentry : entry ∈ present slots) :
    entry.2.IsWritable room :=
  h.writable _ (mem_present.1 hentry) entry.2 rfl

theorem isWritable_record : (Value.table (present slots)).IsWritable (room + 1) :=
  .table (nodup_present h) fun _ => isWritable_of_mem_present h

theorem exists_arrange_present : ∃ moved : Table, moved.Perm (present slots) ∧
    arrange (present slots) = moved.map fun entry => (entry.1, entry.2.arranged) := by
  obtain ⟨moved, hperm, harrange⟩ :=
    exists_arrange (fun v : Value => v) fun _ => isWritable_of_mem_present h
  rw [List.map_id''] at harrange
  · exact ⟨moved, hperm, harrange⟩
  · exact fun _ => rfl

theorem mem_arrange_present {entry : String × Value} (hentry : entry ∈ arrange (present slots)) :
    ∃ v, (entry.1, some v) ∈ slots ∧ entry.2 = v.arranged := by
  obtain ⟨moved, hperm, harrange⟩ := exists_arrange_present h
  rw [harrange] at hentry
  obtain ⟨source, hsource, rfl⟩ := List.mem_map.1 hentry
  exact ⟨source.2, mem_present.1 (hperm.mem_iff.1 hsource), rfl⟩

/-- A slot is found in the written record under its name. -/
theorem lookup_arrange_present {name : String} {value? : Option Value}
    (hslot : (name, value?) ∈ slots) :
    (arrange (present slots)).lookup name = value?.map Value.arranged := by
  obtain ⟨moved, hperm, harrange⟩ := exists_arrange_present h
  have hnodup : ((arrange (present slots)).map (·.1)).Nodup := by
    rw [harrange, List.map_map]
    exact ((hperm.map _).nodup_iff).2 (nodup_present h)
  cases value? with
  | none =>
    refine Node.lookup_of_not_mem fun hname => ?_
    obtain ⟨entry, hentry, rfl⟩ := List.mem_map.1 hname
    obtain ⟨v, hv, -⟩ := mem_arrange_present h hentry
    cases List.inj_on_of_nodup_map h.nodup hslot hv rfl
  | some v =>
    refine lookup_of_mem hnodup ?_
    rw [harrange]
    exact List.mem_map.2 ⟨(name, v), hperm.mem_iff.2 (mem_present.2 hslot), rfl⟩

end

/-- An array of records is read back. -/
theorem isWritable_records {α : Type} {room : Nat} {slots : α → List (String × Option Value)}
    (items : List α) (h : ∀ item ∈ items, IsRecord room (slots item)) :
    (Value.array (items.map fun item => .table (present (slots item)))).IsWritable (room + 1) := by
  by_cases hempty : items = []
  · subst hempty
    exact .line rfl
  · have htables : items.map (fun item => Value.table (present (slots item))) =
        (items.map fun item => present (slots item)).map .table := by
      rw [List.map_map]
      rfl
    rw [htables]
    refine .tables (by simpa using hempty) ?_ ?_
    · intro entries hentries
      obtain ⟨item, hitem, rfl⟩ := List.mem_map.1 hentries
      exact nodup_present (h item hitem)
    · intro entries hentries entry hentry
      obtain ⟨item, hitem, rfl⟩ := List.mem_map.1 hentries
      exact isWritable_of_mem_present (h item hitem) hentry

/-! ## Fields -/

/-- Whether the value of a slot, if it has one, is read as `a`. -/
def Restores {α : Type} (decode : Decoder α) (value? : Option Value) (a : α) : Prop :=
  ∀ v ∈ value?, decode v.arranged = .ok a

theorem restores_some {α : Type} {decode : Decoder α} {v : Value} {a : α}
    (h : decode v.arranged = .ok a) : Restores decode (some v) a := by
  rintro v ⟨⟩
  exact h

theorem restores_text (s : String) : Restores text (some (.string s)) s := restores_some rfl

theorem restores_unlessEmpty {α : Type} {decode : Decoder α} {v : Value} {a : α} {empty : Bool}
    (h : decode v.arranged = .ok a) : Restores decode (unlessEmpty empty v) a := by
  unfold unlessEmpty
  split
  · rintro v ⟨⟩
  · exact restores_some h

theorem restores_texts? (items : List String) : Restores (listOf text) (texts? items) items :=
  restores_unlessEmpty (listOf_texts items)

theorem eq_true_of_unlessEmpty {empty : Bool} {v : Value} (h : unlessEmpty empty v = none) :
    empty = true := by
  unfold unlessEmpty at h
  split at h
  · assumption
  · cases h

theorem eq_nil_of_texts? {items : List String} (h : texts? items = none) : [] = items :=
  (List.isEmpty_iff.1 (eq_true_of_unlessEmpty h)).symm

/-- Whether a field checks a slot and passes it. -/
def Field.Passes (field : Field) (slot : String × Option Value) : Prop :=
  field.name = slot.1 ∧ Restores field.check slot.2 ()

theorem passes_field {α : Type} {name : String} {decode : Decoder α} {value? : Option Value} {a : α}
    (h : Restores decode value? a) : (field name decode).Passes (name, value?) := by
  refine ⟨rfl, fun v hv => ?_⟩
  show (decode v.arranged).map _ = _
  rw [h v hv]
  rfl

theorem passes_optional {α : Type} {name : String} {encode : α → Value} {decode : Decoder α}
    {a? : Option α} (h : ∀ a ∈ a?, decode (encode a).arranged = .ok a) :
    (field name decode).Passes (name, a?.map encode) := by
  refine ⟨rfl, fun v hv => ?_⟩
  obtain ⟨a, ha, rfl⟩ := Option.map_eq_some_iff.1 hv
  show (decode (encode a).arranged).map _ = _
  rw [h a ha]
  rfl

theorem checkEntries_eq_ok {fields : List Field} {entries : Table}
    (h : ∀ entry ∈ entries, ∃ field, fields.find? (·.name == entry.1) = some field ∧
      field.check entry.2 = .ok ()) : checkEntries fields entries = .ok () := by
  induction entries with
  | nil => rfl
  | cons entry entries ih =>
    obtain ⟨⟨field, hfind, hcheck⟩, hrest⟩ := List.forall_mem_cons.1 h
    rw [checkEntries, hfind]
    exact bind_eq_ok.2 ⟨(), hcheck, ih hrest⟩

theorem exists_field {fields : List Field} {slots : List (String × Option Value)}
    (hpasses : List.Forall₂ Field.Passes fields slots) (hnodup : (slots.map (·.1)).Nodup)
    {slot : String × Option Value} (hslot : slot ∈ slots) :
    ∃ field, fields.find? (·.name == slot.1) = some field ∧ Restores field.check slot.2 () := by
  induction hpasses with
  | nil => cases hslot
  | @cons field first fields slots hfirst _ ih =>
    obtain ⟨hother, hnodup⟩ := List.nodup_cons.1 hnodup
    rcases List.mem_cons.1 hslot with rfl | hslot
    · refine ⟨field, List.find?_cons_of_pos ?_, hfirst.2⟩
      rw [hfirst.1]
      exact beq_self_eq_true _
    · obtain ⟨found, hfind, hcheck⟩ := ih hnodup hslot
      refine ⟨found, ?_, hcheck⟩
      rw [List.find?_cons_of_neg, hfind]
      rw [hfirst.1, beq_iff_eq]
      exact fun heq => hother (List.mem_map.2 ⟨slot, hslot, heq.symm⟩)

namespace Record

/-- The record that is read when slots were written. -/
def written (slots : List (String × Option Value)) : Record := ⟨arrange (present slots), false⟩

variable {room : Nat} {slots : List (String × Option Value)} (h : IsRecord room slots)

include h

/-- The written slots pass the checks of their fields. -/
theorem of_present {fields : List Field} (hpasses : List.Forall₂ Field.Passes fields slots) :
    Record.of fields (Value.table (present slots)).arranged = .ok (written slots) := by
  refine bind_eq_ok.2 ⟨(), checkEntries_eq_ok fun entry hentry => ?_, rfl⟩
  obtain ⟨v, hslot, hvalue⟩ := mem_arrange_present h hentry
  obtain ⟨field, hfind, hcheck⟩ := exists_field hpasses h.nodup hslot
  refine ⟨field, hfind, ?_⟩
  rw [hvalue]
  exact hcheck v rfl

section

variable {α : Type} {name : String} {decode : Decoder α}

theorem required_written {v : Value} {a : α} (hslot : (name, some v) ∈ slots)
    (hv : Restores decode (some v) a) : (written slots).required name decode = .ok a := by
  unfold required written
  rw [lookup_arrange_present h hslot]
  exact hv v rfl

theorem withDefault_written {value? : Option Value} {absent a : α} (hslot : (name, value?) ∈ slots)
    (hv : Restores decode value? a) (habsent : value? = none → absent = a) :
    (written slots).withDefault name absent decode = .ok a := by
  unfold withDefault written
  rw [lookup_arrange_present h hslot]
  cases value? with
  | none => exact congrArg Except.ok (habsent rfl)
  | some v => exact hv v rfl

theorem optional_written {encode : α → Value} {a? : Option α}
    (hslot : (name, a?.map encode) ∈ slots)
    (hv : ∀ a ∈ a?, decode (encode a).arranged = .ok a) :
    (written slots).optional name decode = .ok a? := by
  refine withDefault_written h hslot (fun v hmem => ?_) fun hnone => ?_
  · obtain ⟨a, ha, rfl⟩ := Option.map_eq_some_iff.1 hmem
    rw [hv a ha, ha]
    rfl
  · rw [Option.map_eq_none_iff.1 hnone]

end

end Record

end PackagePlan.Toml
