import UsimPhonebook.Proofs.Session.Mirroring

/-! # What an update touches

An update writes at most two records of the card: the one of the field, and the index-pointer record
of the entry, of which it changes one byte. In the session it changes one slot, one index-pointer
record, and the values of one kind of one entry.

* `Session.footprint_of_update` says what an update that succeeds has written, and that nothing else
  is different.
* `Session.damage_of_update` says what one that fails can leave behind: at most the record of the
  field, on the card and in the session alike.

Both hold after every history of commands and faults. The index-pointer record is written as a
whole, but one byte alone changes, because the session holds the record that is on the card
(`Desk.Aim.relinked_record`).
-/

namespace UsimPhonebook

/-! ## Records and bytes of the card -/

/-- The byte at a position (from 0) of a record. -/
def Card.byte? (card : Card) (id : FileId) (number position : Nat) : Option UInt8 :=
  (card.record? id number).bind (·[position]?)

section

variable {card later : Card} {id : FileId} {file : RecordFile}

theorem Card.file?_of_replace (found : card.file? id = some file) {file' : RecordFile}
    (files : later.files = card.files.replace id file') (other : FileId) :
    later.file? other = if other = id then some file' else card.file? other := by
  have found : card.files.find? id = some file := found
  unfold Card.file?
  rw [files, SortedMap.find?_replace, found]
  rfl

theorem Card.record?_of_replace (found : card.file? id = some file) {number : Nat} {record : Bytes}
    (files : later.files = card.files.replace id (file.setRecord number record))
    (low : 1 ≤ number) (high : number ≤ file.records.length) (other : FileId) (n : Nat) :
    later.record? other n =
      if other = id ∧ n = number then some record else card.record? other n := by
  unfold Card.record?
  rw [Card.file?_of_replace found files]
  by_cases same : other = id
  · subst same
    rw [if_pos rfl, found]
    dsimp only
    rw [RecordFile.record?_setRecord low high]
    simp only [true_and]
  · rw [if_neg same, if_neg (fun h => same h.1)]

end

namespace Desk

variable {d d' : Desk} {id : FileId} {file : RecordFile} {record : Bytes}

theorem isEmpty_ne_iff {old new : Text} : old.isEmpty ≠ new.isEmpty ↔ (old = [] ↔ new ≠ []) := by
  cases old <;> cases new <;> simp

theorem toNat_pointerTo {slot : Nat} (high : slot ≤ maxPointedSlot) (new : Text) :
    (pointerTo slot new).toNat = if new = [] then 0 else slot := by
  unfold pointerTo
  cases new with
  | nil => rfl
  | cons c rest => exact Bytes.toNat_ofNat (by unfold maxPointedSlot at high; omega)

/-! ## What an edit writes -/

variable {table : Reference.Table} {reference : FileId} {i : Nat} {refs : Reference.Block}
  {linkage : Linkage} {kind : FieldKind} {offset slot : Nat} {old new : Text}

/-- Between two states of the card the record of a field was written, and the pointer byte of the
entry if a value was added or taken away. No other byte is different. -/
structure Printed (refs : Reference.Block) (linkage : Linkage) (offset : Nat) (old new : Text)
    (card : Card) (id : FileId) (slot : Nat) (record : Bytes) (later : Card) : Prop where
  record : later.record? id slot = some record
  pointer : ∀ place, linkage = .type2 place → (old = [] ↔ new ≠ []) → ∃ iap byte,
    refs.file? .iap = some iap ∧ later.byte? iap (offset + 1) place = some byte ∧
    byte.toNat = if new = [] then 0 else slot
  bytes : ∀ other number at', later.byte? other number at' ≠ card.byte? other number at' →
    other = id ∧ number = slot ∨
    ∃ place, linkage = .type2 place ∧ (old = [] ↔ new ≠ []) ∧ refs.file? .iap = some other ∧
      number = offset + 1 ∧ at' = place

section

variable (faithful : Faithful table reference i refs offset d)
  (aim : Aim refs (table.linkage kind) kind offset old new d id file slot record)
  {d₁ d₂ : Desk} (wrote : Wrote (putRecord kind slot record) d id file slot record d₁)

include aim wrote

theorem Aim.printed_of_settled (idle : table.linkage kind = .type1 ∨ old.isEmpty = new.isEmpty) :
    Printed refs (table.linkage kind) offset old new d.card id slot record d₁.card where
  record := by
    rw [Card.record?_of_replace aim.found wrote.files aim.low aim.high, if_pos ⟨rfl, rfl⟩]
  pointer place pointed differ := by
    rcases idle with own | same
    · rw [own] at pointed
      cases pointed
    · exact absurd same (isEmpty_ne_iff.2 differ)
  bytes other number at' h := by
    left
    by_cases here : other = id ∧ number = slot
    · exact here
    · unfold Card.byte? at h
      rw [Card.record?_of_replace aim.found wrote.files aim.low aim.high, if_neg here] at h
      exact absurd rfl h

include faithful

section

variable {position : Nat} {iapId : FileId} {iap : RecordFile} {pointer : Bytes}
  (pointed : table.linkage kind = .type2 position)
  (relinked : Relinked refs offset position (pointerTo slot new) d₁ iapId iap pointer d₂)

include pointed relinked

/-- The records of the card after both writes. -/
theorem Aim.relinked_records : ∃ held, d.card.record? iapId (offset + 1) = some held ∧
    position < held.length ∧ ∀ other n, d₂.card.record? other n =
      if other = iapId ∧ n = offset + 1 then some (held.set position (pointerTo slot new))
      else if other = id ∧ n = slot then some record else d.card.record? other n := by
  obtain ⟨held, found, there, len, -, rfl⟩ :=
    aim.relinked_record faithful wrote relinked pointed
  have place := relinked.place
  have inside := relinked.inside
  refine ⟨held, ?_, by omega, fun other n => ?_⟩
  · obtain ⟨id', named, there'⟩ := Option.bind_eq_some_iff.1 found
    rw [relinked.named] at named
    cases named
    unfold Card.record? Card.file?
    rw [there']
    exact there
  · rw [Card.record?_of_replace relinked.found relinked.files (by omega) (by omega),
      Card.record?_of_replace aim.found wrote.files aim.low aim.high]

theorem Aim.printed_of_relinked (differ : old.isEmpty ≠ new.isEmpty) :
    Printed refs (table.linkage kind) offset old new d.card id slot record d₂.card := by
  obtain ⟨held, before, place, records⟩ :=
    aim.relinked_records faithful wrote pointed relinked
  have high : slot ≤ maxPointedSlot := (pointed ▸ aim).slot_le
  -- the two records are of two files
  have apart : iapId ≠ id := faithful.separate.ne_of_tag faithful.named faithful.named
    relinked.named aim.named (FileTag.ofKind_ne_iap kind).symm
  refine ⟨?_, fun place' pointed' _ => ?_, fun other number at' h => ?_⟩
  · rw [records, if_neg (fun h => apart h.1.symm), if_pos ⟨rfl, rfl⟩]
  · rw [pointed] at pointed'
    cases pointed'
    refine ⟨iapId, pointerTo slot new, relinked.named, ?_, toNat_pointerTo high new⟩
    unfold Card.byte?
    rw [records, if_pos ⟨rfl, rfl⟩, Option.bind_some, List.getElem?_set_self place]
  · unfold Card.byte? at h
    rw [records] at h
    by_cases pointers : other = iapId ∧ number = offset + 1
    · obtain ⟨rfl, rfl⟩ := pointers
      right
      refine ⟨position, pointed, isEmpty_ne_iff.1 differ, relinked.named, rfl, ?_⟩
      rw [if_pos ⟨rfl, rfl⟩, before, Option.bind_some, Option.bind_some] at h
      exact Classical.byContradiction fun ne => h (List.getElem?_set_ne (Ne.symm ne))
    · rw [if_neg pointers] at h
      by_cases here : other = id ∧ number = slot
      · exact .inl here
      · rw [if_neg here] at h
        exact absurd rfl h

end

end

/-- An edit that succeeds has written the record that it aimed at, on the card and in the session,
and has given the entry its value. -/
theorem Ended.printed (faithful : Faithful table reference i refs offset d)
    (ended : Ended refs (table.linkage kind) kind offset old new d (.ok ()) d') :
    ∃ id file slot record,
      Aim refs (table.linkage kind) kind offset old new d id file slot record ∧
      Printed refs (table.linkage kind) offset old new d.card id slot record d'.card ∧
      (∀ other, d'.block.store other =
        if other = kind then (d.block.store kind).map (·.put (slot - 1) record)
        else d.block.store other) ∧
      d'.block.entries = d.block.entries.map (·.modify offset
        (·.setValues kind (if new = [] then [] else [kind.decode record]))) := by
  cases ended with
  | settled id file slot record d₁ aim wrote idle =>
    have printed := aim.printed_of_settled wrote idle
    refine ⟨id, file, slot, record, aim, printed, fun other => ?_, ?_⟩
    · rw [store_applyValue, wrote.store_eq]
    · rw [entries_applyValue, wrote.entries_eq]
      simp only [(encodeField_spec aim.encoded).2.1]
  | relinked id file slot record d₁ position iap pointers pointer d₂ aim wrote pointed differ
      relinked =>
    have printed := aim.printed_of_relinked faithful wrote pointed relinked differ
    refine ⟨id, file, slot, record, aim, printed, fun other => ?_, ?_⟩
    · rw [store_applyValue, relinked.block, store_setPointer, wrote.store_eq]
    · rw [entries_applyValue, relinked.block, entries_setPointer, wrote.entries_eq]
      simp only [(encodeField_spec aim.encoded).2.1]

/-- An edit that fails leaves all as it is, or it has written the record that it aimed at, and
nothing else. -/
theorem Ended.failed_cases {e : Error}
    (ended : Ended refs linkage kind offset old new d (.error e) d') :
    (d'.block = d.block ∧ d.card.Reads d'.card) ∨
    ∃ place id file slot record, linkage = .type2 place ∧ (old = [] ↔ new ≠ []) ∧
      Aim refs linkage kind offset old new d id file slot record ∧
      d'.block = putRecord kind slot record d.block ∧
      d'.card.files = d.card.files.replace id (file.setRecord slot record) := by
  cases ended with
  | refused e d' block reads _ => exact .inl ⟨block, reads⟩
  | halted id file slot record d₁ place e d' aim wrote pointed differ _ block reads _ =>
    refine .inr ⟨place, id, file, slot, record, pointed, isEmpty_ne_iff.1 differ, aim, ?_, ?_⟩
    · rw [block, wrote.block]
    · rw [reads.files, wrote.files]

end Desk

namespace Session

/-! ## Slots that are held -/

/-- The records of a kind that are held of a block. -/
def store? (s : Session) (kind : FieldKind) (block : Nat) : Option FieldStore :=
  s.blocks[block]?.bind (·.store kind)

/-- A slot of them. -/
def slot? (s : Session) (kind : FieldKind) (block index : Nat) : Option FieldSlot :=
  (s.store? kind block).bind (·.slots[index]?)

/-- Between `s` and `s'` record `slot` of a kind was put into block `i`, where the records of the
kind are held, and counts as in use unless it is blank. No other slot is different, in its record
or in its flag, and none came or went. -/
structure Stored (s : Session) (kind : FieldKind) (i slot : Nat) (record : Bytes) (s' : Session) :
    Prop where
  held : (s.store? kind i).isSome →
    s'.slot? kind i (slot - 1) = some ⟨record, !Bytes.isBlank record⟩
  others : ∀ other j index, other ≠ kind ∨ j ≠ i ∨ index ≠ slot - 1 →
    s'.slot? other j index = s.slot? other j index
  sizes : ∀ other j, (s'.store? other j).map (·.size) = (s.store? other j).map (·.size)

/-- What an update of an entry aims at: a file, a slot in it, and the record of the new value for
this slot. -/
structure Goal (s : Session) (table : Reference.Table) (refs : Reference.Block) (i offset : Nat)
    (old new : Text) (kind : FieldKind) (id : FileId) (slot : Nat) (record : Bytes) : Prop where
  named : refs.file? (.ofKind kind) = some id
  low : 1 ≤ slot
  there : (s.card.record? id slot).isSome
  /-- a record that is linked by position does not name its entry -/
  positional : table.linkage kind = .type1 → slot = offset + 1 ∧
    ∃ file, s.card.file? id = some file ∧ kind.encode file.recordLen new none = .ok record
  /-- one that is linked by a pointer byte names it, and is the linked one or a new one -/
  pointed : ∀ place, table.linkage kind = .type2 place → offset + 1 < 256 ∧
    (s.slotOf? kind i offset = some slot ∨
      s.slotOf? kind i offset = none ∧ old = [] ∧ s.firstFree? kind i = some (slot - 1)) ∧
    ∃ file, s.card.file? id = some file ∧
      kind.encode file.recordLen new (some (UInt8.ofNat (offset + 1))) = .ok record

variable {s : Session} {position i offset : Nat} {table : Reference.Table} {refs : Reference.Block}
  {b : BlockState} {kind : FieldKind} {old new : Text} {id : FileId} {file : RecordFile}
  {slot : Nat} {record : Bytes}

section

variable (v : s.Visit position i offset table refs b) {d : Desk}
  (stores : ∀ other, d.block.store other =
    if other = kind then (b.store kind).map (·.put (slot - 1) record) else b.store other)

include v stores

/-- The records that are held after a desk has put one into its block. -/
theorem Visit.store?_eq (other : FieldKind) (j : Nat) : (s.withDesk i d).store? other j =
    if j = i ∧ other = kind then (s.store? kind i).map (·.put (slot - 1) record)
    else s.store? other j := by
  obtain ⟨inside, -⟩ := List.getElem?_eq_some_iff.1 v.here
  unfold store?
  show (s.blocks.set i d.block)[j]?.bind _ = _
  by_cases block : j = i
  · subst block
    rw [List.getElem?_set_self inside, v.here, Option.bind_some, Option.bind_some, Option.bind_some,
      stores]
    simp only [true_and]
  · rw [List.getElem?_set_ne (Ne.symm block), if_neg (fun h => block h.1)]

theorem Visit.stored (room : ∀ store, b.store kind = some store → slot - 1 < store.size) :
    s.Stored kind i slot record (s.withDesk i d) := by
  have eq := v.store?_eq stores
  have own : s.store? kind i = b.store kind := by
    unfold store?
    rw [v.here, Option.bind_some]
  refine ⟨fun loaded => ?_, fun other j index ne => ?_, fun other j => ?_⟩
  · obtain ⟨store, kept⟩ := Option.isSome_iff_exists.1 loaded
    unfold slot?
    rw [eq, if_pos ⟨rfl, rfl⟩, kept, Option.map_some, Option.bind_some, FieldStore.slot?_put]
    rfl
  · unfold slot?
    rw [eq]
    by_cases here : j = i ∧ other = kind
    · obtain ⟨rfl, rfl⟩ := here
      have apart : index ≠ slot - 1 := by simpa using ne
      rw [if_pos ⟨rfl, rfl⟩, own]
      cases kept : b.store other with
      | none => rfl
      | some store => exact FieldStore.slot?_put_of_ne (room store kept) apart record
    · rw [if_neg here]
  · rw [eq]
    by_cases here : j = i ∧ other = kind
    · obtain ⟨rfl, rfl⟩ := here
      rw [if_pos ⟨rfl, rfl⟩, own]
      cases kept : b.store other with
      | none => rfl
      | some store => exact congrArg some (FieldStore.size_put (room store kept) record)
    · rw [if_neg here]

end

theorem Visit.goal (v : s.Visit position i offset table refs b)
    (aim : Desk.Aim refs (table.linkage kind) kind offset old new ⟨s.channel, b⟩ id file slot
      record) : s.Goal table refs i offset old new kind id slot record where
  named := aim.named
  low := aim.low
  there := by
    have found : s.card.file? id = some file := aim.found
    have high := aim.high
    unfold Card.record?
    rw [found]
    dsimp only
    rw [RecordFile.record?_eq aim.low, List.getElem?_eq_getElem (by have := aim.low; omega)]
    rfl
  positional own := by
    refine ⟨aim.slot_of_positional own, file, aim.found, ?_⟩
    have encoded := aim.encoded
    rw [own] at encoded
    exact encoded
  pointed place pointed := by
    have encoded := aim.encoded
    rw [pointed] at encoded
    unfold Desk.encodeField Desk.backLink recordByte at encoded
    by_cases small : offset + 1 < 256
    · rw [if_pos small] at encoded
      refine ⟨small, ?_, file, aim.found, encoded⟩
      obtain ⟨held, kept, cases⟩ := BlockState.resolveSlot_cases (pointed ▸ aim.resolved)
      have kept : b.pointer? offset = some held := kept
      rw [v.slotOf?_eq pointed, kept]
      rcases cases with named | ⟨unnamed, none, store, index, stored, free, -, rfl⟩
      · exact .inl named
      · refine .inr ⟨unnamed, none, ?_⟩
        have stored : b.store kind = some store := stored
        unfold firstFree?
        rw [v.here, Option.bind_some, stored, Option.bind_some, free]
        rfl
    · rw [if_neg small] at encoded
      cases encoded

/-! ## Updates that succeed -/

/-- An update that succeeds, after any history, has written the record that it aimed at, to the card
and to the slot that is held. Under index-pointer linkage it has also set the pointer byte of the
entry if a value was added or taken away. No other byte of the card is different, no other slot and
no other flag, and of the entries one has other values of the kind. -/
theorem footprint_of_update {card : Card} {options : Options}
    (regular : Regular options.referenceFile card.files) (events : List Event) (position : Nat)
    (old new : Text) (kind : FieldKind) :
    let s := (start card options).after events
    let s' := (s.obey (.update position old new kind)).2
    (s.obey (.update position old new kind)).1 = none →
    ∃ i offset table refs b id slot record, s.Visit position i offset table refs b ∧
      s.Goal table refs i offset old new kind id slot record ∧
      Desk.Printed refs (table.linkage kind) offset old new s.card id slot record s'.card ∧
      SameShape s.card.files s'.card.files ∧ s.Stored kind i slot record s' ∧
      s'.entries = s.entries.modify position
        (·.setValues kind (if new = [] then [] else [kind.decode record])) := by
  intro s s' ok
  have faithful : s.Faithful := (faithful_start regular).after events
  obtain ⟨i, offset, table, refs, b, d', v, ended, performed⟩ := ended_of_obey ok
  have same : s' = s.withDesk i d' := performed
  have desk := faithful.desk v
  obtain ⟨id, file, slot, record, aim, printed, stores, entries⟩ := ended.printed desk
  rw [same]
  exact ⟨i, offset, table, refs, b, id, slot, record, v, v.goal aim, printed, ended.sameShape.1,
    v.stored stores fun store => aim.lt_size desk,
    flatMap_set_of_locateIn v.located v.here entries⟩

/-- An additional number is added after the pointer byte of an email could not be written: the
pointer bytes of the emails, in the same records, stay. -/
theorem footprint_twinCard :
    let s := (start twinCard {}).after [.command .load, .fault .write (.ofNat 0x4F25),
      .command (.update 1 [] ['b'] .email)]
    let s' := (s.obey (.update 1 [] ['2'] .anr)).2
    (s.obey (.update 1 [] ['2'] .anr)).1 = none ∧
      s'.card.byte? (.ofNat 0x4F25) 2 1 = some 0x01 ∧
      ∀ number, s'.card.byte? (.ofNat 0x4F25) number 0 = s.card.byte? (.ofNat 0x4F25) number 0 := by
  intro s s'
  have regular : Regular ({} : Options).referenceFile twinCard.files := by decide +kernel
  have ok : (s.obey (.update 1 [] ['2'] .anr)).1 = none := by decide +kernel
  obtain ⟨i, offset, table, refs, b, id, slot, record, v, goal, printed, -⟩ :=
    footprint_of_update regular _ 1 [] ['2'] .anr ok
  have linked : s.table.map (·.linkage .anr) = some (.type2 1) := by decide +kernel
  have called : ∀ refs ∈ (s.table.map (·.blocks)).getD [],
      refs.file? .anr ≠ some (.ofNat 0x4F25) := by decide +kernel
  rw [v.held] at linked called
  refine ⟨ok, by decide +kernel, fun number => Classical.byContradiction fun differs => ?_⟩
  rcases printed.bytes _ number 0 differs with ⟨rfl, -⟩ | ⟨place, pointed, -, -, -, rfl⟩
  · exact called refs (List.mem_of_getElem? v.named) goal.named
  · cases (Option.some.inj linked).symm.trans pointed

/-! ## Updates that fail -/

theorem Visit.map_blocks (v : s.Visit position i offset table refs b) {α : Type}
    {f : BlockState → α} {d : Desk} (same : f d.block = f b) :
    (s.withDesk i d).blocks.map f = s.blocks.map f := by
  obtain ⟨inside, here⟩ := List.getElem?_eq_some_iff.1 v.here
  show (s.blocks.set i d.block).map f = _
  rw [List.map_set, same, ← here, ← List.getElem_map f, List.set_getElem_self]
  rwa [List.length_map]

/-- The record of a field is in no index-pointer file of any block. -/
theorem Visit.file?_of_write (v : s.Visit position i offset table refs b) (faithful : s.Faithful)
    (aim : Desk.Aim refs (table.linkage kind) kind offset old new ⟨s.channel, b⟩ id file slot
      record) {later : Card} (files : later.files = s.card.files.replace id
        (file.setRecord slot record)) {other : Reference.Table} {j : Nat} {refs' : Reference.Block}
    {iap : FileId} (rooted : Reference.Table.on? s.card.files s.options.referenceFile = some other)
    (named : other.block? j = some refs') (called : refs'.file? .iap = some iap) :
    later.file? iap = s.card.file? iap := by
  have held := (faithful.rooted.table table v.held).1
  rw [rooted] at held
  cases held
  have apart : iap ≠ id := (faithful.desk v).separate.ne_of_tag named v.named called aim.named
    (FileTag.ofKind_ne_iap kind).symm
  exact (Card.file?_of_replace aim.found files iap).trans (if_neg apart)

/-- An update that fails, after any history and whatever faults are pending, leaves the table, the
entries, the index-pointer records that are held and those on the card as they are. It leaves the
rest of the card and of the session as they are too, unless it was to add or to take away a value
that is linked by a pointer byte, and failed after it wrote the record that it aimed at: then this
record is on the card and in the slot that is held, and nothing else is different. -/
theorem damage_of_update {card : Card} {options : Options}
    (regular : Regular options.referenceFile card.files) (events : List Event) (position : Nat)
    (old new : Text) (kind : FieldKind) (e : Error) :
    let s := (start card options).after events
    let s' := (s.obey (.update position old new kind)).2
    (s.obey (.update position old new kind)).1 = some e →
    s'.table = s.table ∧
    s'.blocks.map (·.entries) = s.blocks.map (·.entries) ∧
    s'.blocks.map (·.pointers) = s.blocks.map (·.pointers) ∧
    (∀ table i refs iap, Reference.Table.on? s.card.files options.referenceFile = some table →
      table.block? i = some refs → refs.file? .iap = some iap →
      s'.card.file? iap = s.card.file? iap) ∧
    SameShape s.card.files s'.card.files ∧
    (s'.card.files = s.card.files ∧ s'.blocks = s.blocks ∨
      ∃ i offset table refs b place id slot record, s.Visit position i offset table refs b ∧
        table.linkage kind = .type2 place ∧ (old = [] ↔ new ≠ []) ∧
        s.Goal table refs i offset old new kind id slot record ∧
        s'.card.record? id slot = some record ∧
        (∀ other number, other ≠ id ∨ number ≠ slot →
          s'.card.record? other number = s.card.record? other number) ∧
        s.Stored kind i slot record s') := by
  intro s s' failed
  have faithful : s.Faithful := (faithful_start regular).after events
  have options_eq : s.options = options := options_after (start card options) events
  rcases obey_update_cases s position old new kind with
    ⟨e', refused, -⟩ | ⟨i, offset, table, refs, b, outcome, d', v, ended, performed⟩
  · have same : s' = s := congrArg Prod.snd refused
    rw [same]
    exact ⟨rfl, rfl, rfl, fun _ _ _ _ _ _ _ => rfl, .refl _, .inl ⟨rfl, rfl⟩⟩
  · have same : s' = s.withDesk i d' := congrArg Prod.snd performed
    have desk := faithful.desk v
    have shape := ended.sameShape.1
    rw [performed] at failed
    rw [same]
    cases outcome with
    | ok u => cases failed
    | error e' =>
      rcases ended.failed_cases with
        ⟨block, reads⟩ | ⟨place, id, file, slot, record, pointed, differ, aim, block, files⟩
      · refine ⟨rfl, v.map_blocks (by rw [block]), v.map_blocks (by rw [block]),
          fun _ _ _ iap _ _ _ => reads.file? iap, shape, .inl ⟨reads.files, ?_⟩⟩
        have blocks := v.map_blocks (f := id) (d := d') block
        rwa [List.map_id, List.map_id] at blocks
      · have found : s.card.file? id = some file := aim.found
        have records := Card.record?_of_replace found files aim.low aim.high
        refine ⟨rfl, v.map_blocks ?_, v.map_blocks ?_, fun other j refs' iap rooted named called =>
          v.file?_of_write faithful aim files (options_eq ▸ rooted) named called, shape,
          .inr ⟨i, offset, table, refs, b, place, id, slot, record, v, pointed, differ,
            v.goal aim, ?_, fun other number ne => ?_,
            v.stored (fun other => ?_) fun store => aim.lt_size desk⟩⟩
        · rw [block, Desk.entries_putRecord]
        · rw [block, Desk.pointers_putRecord]
        · exact (records id slot).trans (if_pos ⟨rfl, rfl⟩)
        · refine (records other number).trans (if_neg ?_)
          rintro ⟨rfl, rfl⟩
          rcases ne with ne | ne <;> exact ne rfl
        · rw [block, Desk.store_putRecord]

/-- The pointer byte of an email that is added cannot be written: one record of the card is
another one. -/
theorem damage_twinCard :
    let s := (start twinCard {}).after [.command .load, .fault .write (.ofNat 0x4F25)]
    let s' := (s.obey (.update 1 [] ['b'] .email)).2
    (s.obey (.update 1 [] ['b'] .email)).1 =
      some (.transport (.injected .write (.ofNat 0x4F25))) ∧
    s'.card.files ≠ s.card.files ∧
    s'.blocks.map (·.pointers) = s.blocks.map (·.pointers) ∧
    ∃ id slot record, s'.card.record? id slot = some record ∧
      ∀ other number, other ≠ id ∨ number ≠ slot →
        s'.card.record? other number = s.card.record? other number := by
  intro s s'
  have regular : Regular ({} : Options).referenceFile twinCard.files := by decide +kernel
  have failed : (s.obey (.update 1 [] ['b'] .email)).1 =
      some (.transport (.injected .write (.ofNat 0x4F25))) := by decide +kernel
  have written : s'.card.files ≠ s.card.files := by decide +kernel
  obtain ⟨-, -, pointers, -, -, cases⟩ := damage_of_update regular _ 1 [] ['b'] .email _ failed
  refine ⟨failed, written, pointers, ?_⟩
  rcases cases with ⟨same, -⟩ | ⟨_, _, _, _, _, _, id, slot, record, -, -, -, -, here, others, -⟩
  · exact absurd same written
  · exact ⟨id, slot, record, here, others⟩

end Session

end UsimPhonebook
