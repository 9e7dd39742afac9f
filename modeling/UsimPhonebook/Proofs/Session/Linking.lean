import UsimPhonebook.Proofs.Session.Editing
import UsimPhonebook.Proofs.Session.Mirror

/-! # What an edit makes of links

An edit writes one record of the file of a kind and at most one pointer byte
(`BlockFiles.Edited`). The slot that it picks is the one that the entry's pointer byte names, or one
that no entry's pointer byte names (`BlockState.resolveSlot_cases`), as long as every slot that a
pointer byte names is in use (`BlockState.Guarded`).

So an edit keeps the pointer bytes in order (`BlockFiles.Edited.wellLinked`), what is held is still
what is on the card (`BlockState.Mirrors.putRecord`, `BlockState.Mirrors.setPointer`), and the slots
that are named are still in use (`BlockState.Guarded.edited`).
-/

namespace UsimPhonebook

/-! ## Parts of a block -/

namespace Desk

variable (kind : FieldKind) (slot offset : Nat) (record : Bytes) (b : BlockState)

theorem store_putRecord (other : FieldKind) : (putRecord kind slot record b).store other =
    if other = kind then (b.store kind).map (·.put (slot - 1) record) else b.store other := by
  unfold putRecord
  cases kept : b.store kind with
  | none =>
    dsimp only
    split
    · next same => rw [same, kept]; rfl
    · rfl
  | some store =>
    dsimp only
    split
    · next same => rw [same, BlockState.store_setStore_self]; rfl
    · next ne => exact BlockState.store_setStore_of_ne b ne _

@[simp] theorem entries_putRecord : (putRecord kind slot record b).entries = b.entries := by
  unfold putRecord
  split
  · exact BlockState.entries_setStore ..
  · rfl

@[simp] theorem pointers_putRecord : (putRecord kind slot record b).pointers = b.pointers := by
  unfold putRecord
  split
  · exact BlockState.pointers_setStore ..
  · rfl

@[simp] theorem numbers_putRecord : (putRecord kind slot record b).numbers = b.numbers := by
  unfold putRecord
  split
  · cases kind <;> rfl
  · rfl

@[simp] theorem pointer?_putRecord (other : Nat) :
    (putRecord kind slot record b).pointer? other = b.pointer? other := by
  unfold BlockState.pointer?
  rw [pointers_putRecord]

@[simp] theorem store_applyValue (other : FieldKind) :
    (applyValue kind offset record b).store other = b.store other :=
  BlockState.store_modifyEntry ..

@[simp] theorem pointers_applyValue : (applyValue kind offset record b).pointers = b.pointers := rfl

@[simp] theorem numbers_applyValue : (applyValue kind offset record b).numbers = b.numbers := rfl

theorem entries_applyValue : (applyValue kind offset record b).entries = b.entries.map
    (·.modify offset (·.setValues kind (if kind.decode record = [] then [] else
      [kind.decode record]))) := by
  unfold applyValue BlockState.modifyEntry
  simp only [List.isEmpty_iff]

@[simp] theorem store_setPointer (other : FieldKind) :
    (b.setPointer offset record).store other = b.store other := by
  cases other <;> rfl

@[simp] theorem entries_setPointer : (b.setPointer offset record).entries = b.entries := rfl

@[simp] theorem numbers_setPointer : (b.setPointer offset record).numbers = b.numbers := rfl

theorem pointers_setPointer :
    (b.setPointer offset record).pointers = b.pointers.map (·.set offset record) := rfl

theorem Wrote.sameShape {f : BlockState → BlockState} {d d' : Desk} {id : FileId}
    {file : RecordFile} {number : Nat} {record : Bytes} (w : Wrote f d id file number record d') :
    SameShape d.card.files d'.card.files := by
  intro other
  rw [w.files, SortedMap.find?_replace]
  split
  · next same =>
    have found : d.card.files.find? id = some file := w.found
    rw [same, found]
    simp only [Option.map_some, RecordFile.geometry_setRecord]
  · rfl

theorem sameShape_of_reads {d d' : Desk} (h : d.card.Reads d'.card) :
    SameShape d.card.files d'.card.files := by
  rw [h.files]
  exact .refl _

section

variable {refs : Reference.Block} {linkage : Linkage} {kind : FieldKind} {offset : Nat}
  {old new : Text} {d d' : Desk} {outcome : Except Error Unit}

/-- An edit changes no file in size, and adds no index-pointer record. -/
theorem Ended.sameShape (ended : Ended refs linkage kind offset old new d outcome d') :
    SameShape d.card.files d'.card.files ∧ d.card.Follows d'.card ∧
      d'.block.numbers = d.block.numbers ∧
      d'.block.pointers.map List.length = d.block.pointers.map List.length := by
  cases ended with
  | refused e d' block reads _ =>
    exact ⟨sameShape_of_reads reads, reads.toFollows, by rw [block], by rw [block]⟩
  | halted id file slot record d₁ position e d' aim wrote _ _ _ block reads _ =>
    refine ⟨wrote.sameShape.trans (sameShape_of_reads reads),
      wrote.follows.trans reads.toFollows, ?_, ?_⟩
    · rw [block, wrote.block, numbers_putRecord]
    · rw [block, wrote.block, pointers_putRecord]
  | settled id file slot record d₁ aim wrote _ =>
    refine ⟨wrote.sameShape, wrote.follows, ?_, ?_⟩
    · rw [numbers_applyValue, wrote.block, numbers_putRecord]
    · rw [pointers_applyValue, wrote.block, pointers_putRecord]
  | relinked id file slot record d₁ position iap pointers pointer d₂ aim wrote _ _ relinked =>
    refine ⟨wrote.sameShape.trans relinked.toWrote.sameShape,
      wrote.follows.trans relinked.follows, ?_, ?_⟩
    · rw [numbers_applyValue, relinked.block, numbers_setPointer, wrote.block, numbers_putRecord]
    · rw [pointers_applyValue, relinked.block, pointers_setPointer, wrote.block,
        pointers_putRecord, Option.map_map]
      congr 1
      funext records
      exact List.length_set

end

end Desk

/-! ## The files -/

/-- Between `files` and `files'` a record of a kind was written, and of the pointer bytes at most
the one by which the entry at `offset` is linked to a slot of this kind. -/
structure BlockFiles.Edited (linkage : Linkage) (kind : FieldKind) (offset slot : Nat)
    (file : RecordFile) (record : Bytes) (files files' : BlockFiles) : Prop where
  found : files (.ofKind kind) = some file
  low : 1 ≤ slot
  high : slot ≤ file.records.length
  field : files' (.ofKind kind) = some (file.setRecord slot record)
  others : ∀ tag, tag ≠ .ofKind kind → tag ≠ .iap → files' tag = files tag
  pointers : ∀ position other, linkage ≠ .type2 position ∨ other ≠ offset →
    files'.slot? position other = files.slot? position other

/-- The pointer bytes of the two kinds are at different places. -/
def Reference.Table.Apart (table : Reference.Table) : Prop :=
  ∀ kind other position, table.linkage kind = .type2 position →
    table.linkage other = .type2 position → kind = other

theorem Reference.Table.apart_iff {table : Reference.Table} : table.Apart ↔
    ∀ position ∈ table.email.position?, table.anr ≠ .type2 position := by
  constructor
  · intro apart position pointed pointed'
    cases apart .email .anr position (Linkage.position?_eq_some_iff.1 pointed) pointed'
  · intro places kind other position pointed pointed'
    have places (h : table.email = .type2 position) (h' : table.anr = .type2 position) : False :=
      places position (Linkage.position?_eq_some_iff.2 h) h'
    cases kind <;> cases other
    · rfl
    · exact (places pointed pointed').elim
    · exact (places pointed' pointed).elim
    · rfl

instance (table : Reference.Table) : Decidable table.Apart :=
  decidable_of_iff _ Reference.Table.apart_iff.symm

theorem WellFormed.apart {reference : FileId} {files : CardFiles} {table : Reference.Table}
    (h : WellFormed reference files)
    (rooted : Reference.Table.on? files reference = some table) : table.Apart :=
  Reference.Table.apart_iff.2 fun position pointed =>
    h.places table position rooted (Linkage.position?_eq_some_iff.1 pointed)

namespace BlockFiles

variable {files files' : BlockFiles} {table : Reference.Table} {linkage : Linkage}
  {kind : FieldKind} {offset slot position : Nat} {file : RecordFile} {record : Bytes}

theorem range_of_slot? {named : Nat} (h : files.slot? position offset = some named) :
    1 ≤ named ∧ named ≤ maxPointedSlot := by
  unfold slot? at h
  obtain ⟨iap, _, h⟩ := Option.bind_eq_some_iff.1 h
  obtain ⟨pointer, _, h⟩ := Option.bind_eq_some_iff.1 h
  obtain ⟨_, _, _, low, high⟩ := pointedSlot?_eq_some_iff.1 h
  exact ⟨low, high⟩

theorem edited_put (found : files (.ofKind kind) = some file) (low : 1 ≤ slot)
    (high : slot ≤ file.records.length) (linkage : Linkage) (offset : Nat) (record : Bytes) :
    Edited linkage kind offset slot file record files
      (files.put (.ofKind kind) (file.setRecord slot record)) where
  found := found
  low := low
  high := high
  field := put_self ..
  others tag ne _ := put_of_ne files ne _
  pointers position other _ := slot?_put files (by simp) ..

theorem Edited.put_iap (e : Edited (.type2 position) kind offset slot file record files files')
    {iap : RecordFile} (pointed : files' .iap = some iap) (inside : offset < iap.records.length)
    {pointer : Bytes} (same : ∀ other, other ≠ position →
      pointedSlot? pointer other = files'.slot? other offset) :
    Edited (.type2 position) kind offset slot file record files
      (files'.put .iap (iap.setRecord (offset + 1) pointer)) where
  found := e.found
  low := e.low
  high := e.high
  field := by rw [put_of_ne _ (by simp), e.field]
  others tag ne ne' := by rw [put_of_ne _ ne', e.others tag ne ne']
  pointers position' other h := by
    rw [slot?_setRecord pointed inside]
    split
    · next here =>
      subst here
      have ne : position' ≠ position := by
        intro eq
        subst eq
        rcases h with h | h <;> exact h rfl
      rw [same position' ne, e.pointers position' other h]
    · next there => exact e.pointers position' other h

namespace Edited

variable (e : Edited linkage kind offset slot file record files files')

include e

theorem addressCount : files'.addressCount = files.addressCount := by
  unfold BlockFiles.addressCount
  rw [e.others .adn (by cases kind <;> decide) (by decide)]

/-- The record with a number is another one only in the slot that was written. -/
theorem record?_of_ne {number : Nat} (ne : number ≠ slot) :
    (file.setRecord slot record).record? number = file.record? number := by
  rw [RecordFile.record?_setRecord e.low e.high, if_neg ne]

theorem record?_self : (file.setRecord slot record).record? slot = some record := by
  rw [RecordFile.record?_setRecord e.low e.high, if_pos rfl]

end Edited

/-- An edit keeps the pointer bytes in order if no other entry names the slot, and if the entry
itself comes to name none but this slot, with a value in it. -/
theorem Edited.wellLinked
    (e : Edited (table.linkage kind) kind offset slot file record files files')
    (linked : files.WellLinked table) (apart : table.Apart)
    (alone : ∀ position other, table.linkage kind = .type2 position →
      other < files.addressCount → other ≠ offset → files.slot? position other ≠ some slot)
    (own : ∀ position named, table.linkage kind = .type2 position →
      files'.slot? position offset = some named → named = slot ∧ kind.decode record ≠ []) :
    files'.WellLinked table where
  exclusive kind' position a b named pointed insideA insideB namesA namesB := by
    rw [e.addressCount] at insideA insideB
    by_cases same : kind' = kind
    · subst same
      by_cases atA : a = offset
      · by_cases atB : b = offset
        · rw [atA, atB]
        · subst atA
          obtain ⟨rfl, -⟩ := own position named pointed namesA
          rw [e.pointers position b (.inr atB)] at namesB
          exact absurd namesB (alone position b pointed insideB atB)
      · by_cases atB : b = offset
        · subst atB
          obtain ⟨rfl, -⟩ := own position named pointed namesB
          rw [e.pointers position a (.inr atA)] at namesA
          exact absurd namesA (alone position a pointed insideA atA)
        · rw [e.pointers position a (.inr atA)] at namesA
          rw [e.pointers position b (.inr atB)] at namesB
          exact linked.exclusive kind' position a b named pointed insideA insideB namesA namesB
    · have elsewhere : table.linkage kind ≠ .type2 position :=
        fun h => same (apart kind' kind position pointed h)
      rw [e.pointers position a (.inl elsewhere)] at namesA
      rw [e.pointers position b (.inl elsewhere)] at namesB
      exact linked.exclusive kind' position a b named pointed insideA insideB namesA namesB
  live kind' position a named pointed inside names := by
    rw [e.addressCount] at inside
    by_cases same : kind' = kind
    · subst same
      refine ⟨file.setRecord slot record, ?_⟩
      rw [e.field]
      by_cases at' : a = offset
      · subst at'
        obtain ⟨rfl, some⟩ := own position named pointed names
        exact ⟨record, rfl, e.record?_self, some⟩
      · rw [e.pointers position a (.inr at')] at names
        obtain ⟨file', value, found, there, some⟩ :=
          linked.live kind' position a named pointed inside names
        rw [e.found] at found
        cases found
        have ne : named ≠ slot := by
          rintro rfl
          exact alone position a pointed inside at' names
        exact ⟨value, rfl, by rw [e.record?_of_ne ne, there], some⟩
    · have elsewhere : table.linkage kind ≠ .type2 position :=
        fun h => same (apart kind' kind position pointed h)
      rw [e.pointers position a (.inl elsewhere)] at names
      rw [e.others _ (fun h => same (FileTag.ofKind_injective h)) (by simp)]
      exact linked.live kind' position a named pointed inside names

end BlockFiles

/-! ## The block -/

namespace BlockState

/-- Every slot that the pointer byte of an entry names is in use. -/
def Guarded (b : BlockState) (table : Reference.Table) (files : BlockFiles) : Prop :=
  ∀ kind position offset named store, table.linkage kind = .type2 position → b.entries.isSome →
    b.store kind = some store → offset < files.addressCount →
    files.slot? position offset = some named →
    ∃ slot, store.slots[named - 1]? = some slot ∧ slot.used = true

variable {b b' : BlockState} {table : Reference.Table} {files files' : BlockFiles}
  {kind : FieldKind} {linkage : Linkage} {offset slot position : Nat} {old : Text}
  {file : RecordFile} {record : Bytes}

/-- Under index pointers an edit goes to the slot that the pointer byte names, or to the first free
one. -/
theorem resolveSlot_cases (h : b.resolveSlot kind (.type2 position) offset old = .ok slot) :
    ∃ held, b.pointer? offset = some held ∧ (pointedSlot? held position = some slot ∨
      pointedSlot? held position = none ∧ old = [] ∧ ∃ store index, b.store kind = some store ∧
        store.firstFree? = some index ∧ index < maxPointedSlot ∧ slot = index + 1) := by
  unfold resolveSlot at h
  dsimp only at h
  split at h
  · cases h
  · next held kept =>
    refine ⟨held, kept, ?_⟩
    split at h
    · next named pointed =>
      cases h
      exact .inl pointed
    · next unpointed =>
      split at h
      · cases h
      · next empty =>
        have empty : old = [] := by simpa using empty
        split at h
        · cases h
        · next store stored =>
          split at h
          · next index free =>
            split at h
            · next small =>
              cases h
              exact .inr ⟨unpointed, empty, store, index, stored, free, small, rfl⟩
            · cases h
          · cases h

theorem isSome_of_pointer? {held : Bytes} (h : b.pointer? offset = some held) :
    b.pointers.isSome := by
  unfold pointer? at h
  cases kept : b.pointers with
  | none =>
    rw [kept] at h
    cases h
  | some records => rfl

/-- The slot that an edit of an entry picks, by the pointer bytes on the card: the one that the
entry names, or one that no entry names. -/
theorem Guarded.resolveSlot_cases (guarded : b.Guarded table files)
    (mirrors : b.Mirrors table files) (linked : files.WellLinked table)
    (pointed : table.linkage kind = .type2 position) (loaded : b.entries.isSome)
    (inside : offset < files.addressCount)
    (h : b.resolveSlot kind (.type2 position) offset old = .ok slot) :
    1 ≤ slot ∧ slot ≤ maxPointedSlot ∧
    (files.slot? position offset = some slot ∨ files.slot? position offset = none ∧ old = []) ∧
    ∀ other, other < files.addressCount → other ≠ offset →
      files.slot? position other ≠ some slot := by
  obtain ⟨held, kept, named | ⟨unnamed, empty, store, index, stored, free, small, rfl⟩⟩ :=
    BlockState.resolveSlot_cases h
  · have here := mirrors.slot?_eq (isSome_of_pointer? kept) inside position
    rw [kept] at here
    have here : files.slot? position offset = some slot := here.symm.trans named
    obtain ⟨-, -, -, low, high⟩ := pointedSlot?_eq_some_iff.1 named
    refine ⟨low, high, .inl here, fun other inside' ne there => ne ?_⟩
    exact linked.exclusive kind position other offset slot pointed inside' inside there here
  · have here := mirrors.slot?_eq (isSome_of_pointer? kept) inside position
    rw [kept] at here
    have here : files.slot? position offset = none := here.symm.trans unnamed
    refine ⟨by omega, by omega, .inr ⟨here, empty⟩, fun other inside' ne there => ?_⟩
    obtain ⟨slot, at', used⟩ :=
      guarded kind position other (index + 1) store pointed loaded stored inside' there
    obtain ⟨slot', at'', unused⟩ := FieldStore.free_of_firstFree? free
    rw [Nat.add_sub_cancel, at''] at at'
    cases at'
    rw [used] at unused
    cases unused

theorem Mirrors.records_eq (mirrors : b.Mirrors table files) {store : FieldStore}
    (stored : b.store kind = some store) (found : files (.ofKind kind) = some file) :
    store.records = match table.linkage kind with
      | .type1 => file.records.take (max 1 files.addressCount)
      | .type2 _ => file.records := by
  obtain ⟨-, read⟩ := mirrors.stored kind store stored
  unfold BlockFiles.fieldRecords BlockFiles.perEntry at read
  rw [found] at read
  cases linkage : table.linkage kind with
  | type1 =>
    rw [linkage] at read
    exact (Option.some.inj read).symm
  | type2 position =>
    rw [linkage] at read
    exact (Option.some.inj read).symm

theorem Mirrors.lt_size (mirrors : b.Mirrors table files) {store : FieldStore}
    (stored : b.store kind = some store) (found : files (.ofKind kind) = some file)
    (low : 1 ≤ slot) (high : slot ≤ file.records.length)
    (inside : table.linkage kind = .type1 → slot ≤ files.addressCount) :
    slot - 1 < store.size := by
  rw [FieldStore.size_eq, mirrors.records_eq stored found]
  cases linkage : table.linkage kind with
  | type1 =>
    have inside := inside linkage
    rw [List.length_take]
    omega
  | type2 position =>
    dsimp only
    omega

/-- What is held is still on the card when a record is written to both. -/
theorem Mirrors.putRecord (mirrors : b.Mirrors table files)
    (found : files (.ofKind kind) = some file) (low : 1 ≤ slot)
    (high : slot ≤ file.records.length)
    (inside : table.linkage kind = .type1 → slot ≤ files.addressCount) (record : Bytes) :
    (Desk.putRecord kind slot record b).Mirrors table
      (files.put (.ofKind kind) (file.setRecord slot record)) := by
  have count := files.addressCount_put (FileTag.ofKind_ne_adn kind) (file.setRecord slot record)
  have adn := files.put_of_ne (FileTag.ofKind_ne_adn kind).symm
    (file.setRecord slot record)
  refine ⟨?_, ?_, ?_, ?_⟩
  · rw [Desk.entries_putRecord, Desk.numbers_putRecord, count, adn]
    exact mirrors.entries
  · unfold BlockFiles.perEntry
    rw [Desk.pointers_putRecord, count, BlockFiles.put_of_ne _ (by cases kind <;> decide)]
    exact mirrors.pointers
  · intro other store stored
    rw [Desk.store_putRecord] at stored
    rw [adn]
    by_cases same : other = kind
    · subst same
      rw [if_pos rfl] at stored
      obtain ⟨before, stored', rfl⟩ := Option.map_eq_some_iff.1 stored
      have room := mirrors.lt_size stored' found low high inside
      refine ⟨(mirrors.stored other before stored').1, ?_⟩
      rw [FieldStore.records_put room, mirrors.records_eq stored' found]
      unfold BlockFiles.fieldRecords BlockFiles.perEntry
      rw [count, BlockFiles.put_self]
      cases table.linkage other with
      | type1 => simp only [Option.map_some, RecordFile.setRecord, List.take_set]
      | type2 position => rfl
    · rw [if_neg same] at stored
      obtain ⟨there, read⟩ := mirrors.stored other store stored
      refine ⟨there, ?_⟩
      unfold BlockFiles.fieldRecords BlockFiles.perEntry at read ⊢
      rw [count, BlockFiles.put_of_ne _ (fun h => same (FileTag.ofKind_injective h))]
      exact read
  · intro other t held
    rw [Desk.pointers_putRecord]
    apply mirrors.linked other t
    rw [Desk.store_putRecord] at held
    split at held
    · next same =>
      rw [same]
      rwa [Option.isSome_map] at held
    · exact held

theorem Mirrors.setPointer (mirrors : b.Mirrors table files) (found : files .iap = some file)
    (record : Bytes) : (b.setPointer offset record).Mirrors table
      (files.put .iap (file.setRecord (offset + 1) record)) := by
  have count := files.addressCount_put (show FileTag.iap ≠ .adn by decide)
    (file.setRecord (offset + 1) record)
  have adn := files.put_of_ne (show FileTag.adn ≠ .iap by decide)
    (file.setRecord (offset + 1) record)
  refine ⟨?_, ?_, ?_, ?_⟩
  · rw [Desk.entries_setPointer, Desk.numbers_setPointer, count, adn]
    exact mirrors.entries
  · intro records held
    rw [Desk.pointers_setPointer] at held
    obtain ⟨before, held', rfl⟩ := Option.map_eq_some_iff.1 held
    obtain ⟨read, some⟩ := mirrors.pointers before held'
    unfold BlockFiles.perEntry at read ⊢
    rw [count, BlockFiles.put_self]
    rw [found] at read
    cases read
    refine ⟨?_, fun none => some ?_⟩
    · simp only [Option.map_some, RecordFile.setRecord, List.take_set, Nat.add_sub_cancel]
    · simpa using none
  · intro kind store stored
    rw [Desk.store_setPointer] at stored
    obtain ⟨there, read⟩ := mirrors.stored kind store stored
    rw [adn]
    refine ⟨there, ?_⟩
    unfold BlockFiles.fieldRecords BlockFiles.perEntry at read ⊢
    rw [count, BlockFiles.put_of_ne _ (by simp)]
    exact read
  · intro kind t held
    rw [Desk.store_setPointer] at held
    rw [Desk.pointers_setPointer, Option.isSome_map]
    exact mirrors.linked kind t held

theorem Mirrors.applyValue (mirrors : b.Mirrors table files) (kind : FieldKind) (offset : Nat)
    (record : Bytes) : (Desk.applyValue kind offset record b).Mirrors table files where
  entries es h := by
    rw [Desk.entries_applyValue] at h
    obtain ⟨before, h', rfl⟩ := Option.map_eq_some_iff.1 h
    rw [List.length_modify]
    exact mirrors.entries before h'
  pointers := mirrors.pointers
  stored other store stored := by
    rw [Desk.store_applyValue] at stored
    exact mirrors.stored other store stored
  linked other t held := by
    rw [Desk.store_applyValue] at held
    exact mirrors.linked other t held

/-- Named slots stay in use if the written record is not blank where an entry names its slot. -/
theorem Guarded.edited (guarded : b.Guarded table files)
    (mirrors : b.Mirrors table files)
    (e : files.Edited (table.linkage kind) kind offset slot file record files')
    (apart : table.Apart)
    (alone : ∀ position other, table.linkage kind = .type2 position →
      other < files.addressCount → other ≠ offset → files.slot? position other ≠ some slot)
    (own : ∀ position named, table.linkage kind = .type2 position →
      files'.slot? position offset = some named →
        named = slot ∧ Bytes.isBlank record = false)
    (entries : b'.entries.isSome → b.entries.isSome)
    (stores : ∀ other, b'.store other =
      if other = kind then (b.store kind).map (·.put (slot - 1) record) else b.store other) :
    b'.Guarded table files' := by
  intro kind' position a named store pointed loaded stored inside names
  rw [e.addressCount] at inside
  rw [stores] at stored
  by_cases same : kind' = kind
  · subst same
    rw [if_pos rfl] at stored
    obtain ⟨before, stored', rfl⟩ := Option.map_eq_some_iff.1 stored
    by_cases here : a = offset
    · subst here
      obtain ⟨rfl, written⟩ := own position named pointed names
      exact ⟨_, FieldStore.slot?_put .., by simp [FieldStore.written, written]⟩
    · rw [e.pointers position a (.inr here)] at names
      have room := mirrors.lt_size stored' e.found e.low e.high
        fun no => by rw [pointed] at no; cases no
      have ne : named - 1 ≠ slot - 1 := by
        have low := e.low
        have low' := (BlockFiles.range_of_slot? names).1
        intro eq
        have : named = slot := by omega
        subst this
        exact alone position a pointed inside here names
      rw [FieldStore.slot?_put_of_ne room ne]
      exact guarded kind' position a named before pointed (entries loaded) stored' inside names
  · rw [if_neg same] at stored
    have elsewhere : table.linkage kind ≠ .type2 position :=
      fun h => same (apart kind' kind position pointed h)
    rw [e.pointers position a (.inl elsewhere)] at names
    exact guarded kind' position a named store pointed (entries loaded) stored inside names

end BlockState

end UsimPhonebook
