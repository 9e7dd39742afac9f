import UsimPhonebook.Proofs.Session.Linking
import UsimPhonebook.Proofs.Session.Loading

/-! # The effect of an edit

On a card where no file serves twice an edit of block `i` leaves the files of every other block
alone, and the reference file (`Desk.Ended.confined`). `Desk.Effect` is what it makes of the files
of its own block and of the block, once it has written anything: how the files differ, that what is
held is still on the card, and which slot the pointer byte of the entry names in the end
(`Desk.Ended.effect`).
-/

namespace UsimPhonebook.Desk

variable {refs : Reference.Block} {table : Reference.Table} {reference : FileId} {i : Nat}

/-! ## Which files are written -/

/-- Between `d` and `d'` nothing was written but records of the files of block `i`. -/
structure Confined (table : Reference.Table) (reference : FileId) (i : Nat) (d d' : Desk) :
    Prop where
  others : ∀ j refs, table.block? j = some refs → j ≠ i →
    refs.on d'.card.files = refs.on d.card.files
  rooted : Reference.Table.on? d'.card.files reference = Reference.Table.on? d.card.files reference
  sized : (∀ id file, d.card.files.find? id = some file → file.WellSized) →
    ∀ id file, d'.card.files.find? id = some file → file.WellSized
  follows : d.card.Follows d'.card

theorem Confined.of_reads {d d' : Desk} (reads : d.card.Reads d'.card) :
    Confined table reference i d d' where
  others j refs _ _ := by rw [reads.files]
  rooted := by rw [reads.files]
  sized sized := by
    rw [reads.files]
    exact sized
  follows := reads.toFollows

theorem Confined.trans {a b c : Desk} (h : Confined table reference i a b)
    (h' : Confined table reference i b c) : Confined table reference i a c where
  others j refs named ne := (h'.others j refs named ne).trans (h.others j refs named ne)
  rooted := h'.rooted.trans h.rooted
  sized sized := h'.sized (h.sized sized)
  follows := h.follows.trans h'.follows

section

variable (separate : table.Separate reference) (named : table.block? i = some refs)
  {f : BlockState → BlockState} {d d' : Desk} {id : FileId} {file : RecordFile} {number : Nat}
  {record : Bytes} {tag : FileTag} (tagged : refs.file? tag = some id)

include separate named tagged

theorem Wrote.on (w : Wrote f d id file number record d') : refs.on d'.card.files =
    (refs.on d.card.files).put tag (file.setRecord number record) := by
  rw [w.files]
  refine Reference.Block.on_replace_self tagged (fun other h => ?_) w.found _
  exact (separate.once i i refs refs other tag id named named h tagged).2

theorem Wrote.confined (w : Wrote f d id file number record d') :
    Confined table reference i d d' where
  others j refs' named' ne := by
    rw [w.files]
    refine Reference.Block.on_replace_of_ne (fun other h => ne ?_) _ _
    exact (separate.once j i refs' refs other tag id named' named h tagged).1
  rooted := by
    rw [w.files]
    refine Reference.Table.on?_replace (fun h => ?_) _
    exact separate.apart i refs tag named (h ▸ tagged)
  sized sized id' file' found := by
    rw [w.files, SortedMap.find?_replace] at found
    split at found
    · obtain ⟨old, there, rfl⟩ := Option.map_eq_some_iff.1 found
      exact (sized id file w.found).setRecord number w.fits
    · exact sized id' file' found
  follows := w.follows

end

/-- An edit of a block changes the files of this block alone. -/
theorem Ended.confined (separate : table.Separate reference) (named : table.block? i = some refs)
    {linkage : Linkage} {kind : FieldKind} {offset : Nat} {old new : Text} {d d' : Desk}
    {outcome : Except Error Unit}
    (ended : Ended refs linkage kind offset old new d outcome d') :
    Confined table reference i d d' := by
  cases ended with
  | refused e d' block reads _ => exact .of_reads reads
  | halted id file slot record d₁ position e d' aim wrote _ _ _ _ reads _ =>
    exact (wrote.confined separate named aim.named).trans (.of_reads reads)
  | settled id file slot record d₁ aim wrote _ =>
    exact (wrote.confined separate named aim.named).trans (.of_reads (.refl _))
  | relinked id file slot record d₁ position iap pointers pointer d₂ aim wrote _ _ relinked =>
    exact ((wrote.confined separate named aim.named).trans
      (relinked.toWrote.confined separate named relinked.named)).trans (.of_reads (.refl _))

/-- An edit that fails leaves the entries as they are, and one that succeeds gives the entry at
`offset` other values. -/
theorem Ended.entries_cases {linkage : Linkage} {kind : FieldKind} {offset : Nat} {old new : Text}
    {d d' : Desk} {outcome : Except Error Unit}
    (ended : Ended refs linkage kind offset old new d outcome d') :
    (∃ e, outcome = .error e) ∧ d'.block.entries = d.block.entries ∨
    outcome = .ok () ∧ ∃ values,
      d'.block.entries = d.block.entries.map (·.modify offset (·.setValues kind values)) := by
  cases ended with
  | refused e d' block _ _ => exact .inl ⟨⟨e, rfl⟩, by rw [block]⟩
  | halted id file slot record d₁ position e d' aim wrote _ _ _ block _ _ =>
    exact .inl ⟨⟨e, rfl⟩, by rw [block, wrote.block, entries_putRecord]⟩
  | settled id file slot record d₁ aim wrote _ =>
    rw [entries_applyValue, wrote.block, entries_putRecord]
    exact .inr ⟨rfl, _, rfl⟩
  | relinked id file slot record d₁ position iap pointers pointer d₂ aim wrote _ _ relinked =>
    rw [entries_applyValue, relinked.block, entries_setPointer, wrote.block, entries_putRecord]
    exact .inr ⟨rfl, _, rfl⟩

/-! ## Pointer bytes -/

/-- The pointer byte of a slot names this slot, and that of no value names none. -/
theorem pointedSlot?_set_pointerTo {record : Bytes} {position slot : Nat}
    (place : position < record.length) (low : 1 ≤ slot) (high : slot ≤ maxPointedSlot)
    (new : Text) : pointedSlot? (record.set position (pointerTo slot new)) position =
      if new = [] then none else some slot := by
  unfold pointedSlot? pointerTo
  rw [List.getElem?_set_self place]
  dsimp only
  by_cases empty : new = []
  · subst empty
    rfl
  · have some : new.isEmpty = false := by simpa using empty
    have byte : (UInt8.ofNat slot).toNat = slot :=
      Bytes.toNat_ofNat (by unfold maxPointedSlot at high; omega)
    rw [some, if_neg empty]
    simp only [Bool.false_eq_true, if_false, byte]
    rw [if_pos ⟨low, high⟩]

/-- An index-pointer record of the right length changes in one byte. -/
theorem pointerRecord_eq {record : Bytes} {recordLen : Nat} (len : record.length = recordLen)
    (position : Nat) (pointer : UInt8) :
    pointerRecord (some record) recordLen position pointer = record.set position pointer := by
  unfold pointerRecord
  rw [Option.getD_some, Bytes.fitTo_eq_self len]

theorem lt_of_pointedSlot? {record : Bytes} {position slot : Nat}
    (h : pointedSlot? record position = some slot) : position < record.length := by
  obtain ⟨b, there, -⟩ := pointedSlot?_eq_some_iff.1 h
  exact (List.getElem?_eq_some_iff.1 there).1

/-! ## The effect on the block -/

/-- What the choice of a slot and a record comes to, before anything is written. -/
structure Target (table : Reference.Table) (refs : Reference.Block) (kind : FieldKind)
    (offset : Nat) (new : Text) (d : Desk) (slot : Nat) (record : Bytes) : Prop where
  empty : kind.decode record = [] ↔ new = []
  blank : Bytes.isBlank record = true ↔ new = []
  readable : (refs.on d.card.files).Readable (table.linkage kind) kind
  /-- under positional linkage the slot is the entry's own -/
  place : table.linkage kind = .type1 → slot = offset + 1
  /-- no other entry names the slot -/
  alone : ∀ position other, table.linkage kind = .type2 position →
    other < (refs.on d.card.files).addressCount → other ≠ offset →
    (refs.on d.card.files).slot? position other ≠ some slot
  /-- if the entry named a slot before, it was this one -/
  was : ∀ position named, table.linkage kind = .type2 position →
    (refs.on d.card.files).slot? position offset = some named → named = slot
  /-- the pointer byte of the entry is held -/
  held : ∀ position, table.linkage kind = .type2 position →
    (d.block.pointer? offset).bind (pointedSlot? · position) =
      (refs.on d.card.files).slot? position offset

/-- What an edit that has written something makes of the block and of its files. -/
structure Effect (table : Reference.Table) (refs : Reference.Block) (kind : FieldKind)
    (offset : Nat) (old new : Text) (d d' : Desk) (outcome : Except Error Unit) (slot : Nat)
    (file : RecordFile) (record : Bytes) : Prop
    extends Target table refs kind offset new d slot record where
  edited : (refs.on d.card.files).Edited (table.linkage kind) kind offset slot file record
    (refs.on d'.card.files)
  mirrors : d'.block.Mirrors table (refs.on d'.card.files)
  stores : ∀ other, d'.block.store other =
    if other = kind then (d.block.store kind).map (·.put (slot - 1) record)
    else d.block.store other
  changed : outcome = .ok () → d'.block.entries = d.block.entries.map (·.modify offset
    (·.setValues kind (if new = [] then [] else [kind.decode record])))
  kept : ∀ e, outcome = .error e → d'.block.entries = d.block.entries
  /-- in the end the entry names no slot but this, and that only if a value was put there, if it
  was edited without any text, or if a request failed -/
  own : ∀ position named, table.linkage kind = .type2 position →
    (refs.on d'.card.files).slot? position offset = some named → named = slot ∧
      (new ≠ [] ∨ (refs.on d.card.files).slot? position offset = some slot ∧
        (old = [] ∨ d.card.failures < d'.card.failures))
  /-- when all is done the entry names the slot exactly if there is a value -/
  done : outcome = .ok () → ¬ (old = [] ∧ new = []) → ∀ position,
    table.linkage kind = .type2 position →
    (refs.on d'.card.files).slot? position offset = if new = [] then none else some slot

section

variable {kind : FieldKind} {offset : Nat} {old new : Text} {d : Desk} {id : FileId}
  {file : RecordFile} {slot : Nat} {record : Bytes}

/-- What holds of a block and of its files when an edit begins. -/
structure Ready (table : Reference.Table) (reference : FileId) (i : Nat) (refs : Reference.Block)
    (offset : Nat) (d : Desk) : Prop where
  separate : table.Separate reference
  apart : table.Apart
  named : table.block? i = some refs
  sized : ∀ id file, d.card.files.find? id = some file → file.WellSized
  linked : (refs.on d.card.files).WellLinked table
  mirrors : d.block.Mirrors table (refs.on d.card.files)
  guarded : d.block.Guarded table (refs.on d.card.files)
  loaded : d.block.entries.isSome
  inside : offset < (refs.on d.card.files).addressCount

/-- What is held of block `i` is on its files, which serve nowhere else, and the entry at `offset`
has its address record. -/
structure Faithful (table : Reference.Table) (reference : FileId) (i : Nat)
    (refs : Reference.Block) (offset : Nat) (d : Desk) : Prop where
  separate : table.Separate reference
  named : table.block? i = some refs
  sized : ∀ id file, d.card.files.find? id = some file → file.WellSized
  mirrors : d.block.Mirrors table (refs.on d.card.files)
  inside : offset < (refs.on d.card.files).addressCount

theorem Ready.faithful (ready : Ready table reference i refs offset d) :
    Faithful table reference i refs offset d :=
  ⟨ready.separate, ready.named, ready.sized, ready.mirrors, ready.inside⟩

variable {linkage : Linkage}

theorem Aim.found_on (aim : Aim refs linkage kind offset old new d id file slot record) :
    refs.on d.card.files (.ofKind kind) = some file := by
  unfold Reference.Block.on
  rw [aim.named]
  exact aim.found

theorem Aim.slot_of_positional
    (aim : Aim refs linkage kind offset old new d id file slot record) (own : linkage = .type1) :
    slot = offset + 1 := by
  subst own
  cases aim.resolved
  rfl

/-- The slot of an edit under index pointers can be named by a pointer byte. -/
theorem Aim.slot_le {position : Nat}
    (aim : Aim refs (.type2 position) kind offset old new d id file slot record) :
    slot ≤ maxPointedSlot := by
  obtain ⟨held, -, named | ⟨-, -, store, index, -, -, small, rfl⟩⟩ :=
    BlockState.resolveSlot_cases aim.resolved
  · obtain ⟨-, -, -, -, high⟩ := pointedSlot?_eq_some_iff.1 named
    exact high
  · exact small

/-! ## What is held stays on the card -/

section

variable (faithful : Faithful table reference i refs offset d)
  (aim : Aim refs (table.linkage kind) kind offset old new d id file slot record)

include faithful aim

/-- The index-pointer file of an entry whose pointer byte is held. -/
theorem Aim.pointers_on {position : Nat} (pointed : table.linkage kind = .type2 position) :
    ∃ iap held, refs.on d.card.files .iap = some iap ∧ iap.records[offset]? = some held ∧
      held.length = iap.recordLen ∧ d.block.pointer? offset = some held := by
  have resolved := aim.resolved
  rw [pointed] at resolved
  obtain ⟨held, kept, -⟩ := BlockState.resolveSlot_cases resolved
  obtain ⟨iap, found, same⟩ :=
    faithful.mirrors.pointer?_eq (BlockState.isSome_of_pointer? kept) faithful.inside
  rw [kept] at same
  refine ⟨iap, held, found, same.symm, ?_, kept⟩
  obtain ⟨id', -, there⟩ := Option.bind_eq_some_iff.1 found
  exact faithful.sized id' iap there held (List.mem_of_getElem? same.symm)

theorem Aim.readable : (refs.on d.card.files).Readable (table.linkage kind) kind := by
  refine BlockFiles.readable_of_record offset (by rw [aim.found_on]; rfl) fun position pointed => ?_
  obtain ⟨iap, held, found, there, -⟩ := aim.pointers_on faithful pointed
  exact ⟨iap, held, found, there⟩

theorem Aim.lt_size {store : FieldStore} (stored : d.block.store kind = some store) :
    slot - 1 < store.size := by
  refine faithful.mirrors.lt_size stored aim.found_on aim.low aim.high fun own => ?_
  have inside := faithful.inside
  rw [aim.slot_of_positional own]
  omega

variable {d₁ : Desk} (wrote : Wrote (putRecord kind slot record) d id file slot record d₁)

include wrote

theorem Aim.wrote_on : refs.on d₁.card.files =
    (refs.on d.card.files).put (.ofKind kind) (file.setRecord slot record) :=
  wrote.on faithful.separate faithful.named aim.named

theorem Aim.wrote_edited : (refs.on d.card.files).Edited (table.linkage kind) kind offset slot file
    record (refs.on d₁.card.files) := by
  rw [aim.wrote_on faithful wrote]
  exact BlockFiles.edited_put aim.found_on aim.low aim.high ..

theorem Aim.wrote_slot? (position other : Nat) : (refs.on d₁.card.files).slot? position other =
    (refs.on d.card.files).slot? position other := by
  rw [aim.wrote_on faithful wrote, BlockFiles.slot?_put _ (by simp)]

theorem Aim.wrote_mirrors : d₁.block.Mirrors table (refs.on d₁.card.files) := by
  rw [wrote.block, aim.wrote_on faithful wrote]
  refine faithful.mirrors.putRecord aim.found_on aim.low aim.high (fun own => ?_) record
  have inside := faithful.inside
  rw [aim.slot_of_positional own]
  omega

variable {position : Nat} {iapId : FileId} {iap : RecordFile} {pointer : Bytes} {d₂ : Desk}
  (relinked : Relinked refs offset position (pointerTo slot new) d₁ iapId iap pointer d₂)

include relinked

/-- The index-pointer record that is written is the one on the card, but for one byte. -/
theorem Aim.relinked_record (pointed : table.linkage kind = .type2 position) :
    ∃ held, refs.on d.card.files .iap = some iap ∧ iap.records[offset]? = some held ∧
      held.length = iap.recordLen ∧ d.block.pointer? offset = some held ∧
      pointer = held.set position (pointerTo slot new) := by
  obtain ⟨iap', held, found, there, len, kept⟩ := aim.pointers_on faithful pointed
  have found₁ : refs.on d₁.card.files .iap = some iap := on_eq_some relinked.named relinked.found
  have same : iap' = iap := by
    rw [aim.wrote_on faithful wrote, BlockFiles.put_of_ne _ (FileTag.ofKind_ne_iap kind).symm,
      found] at found₁
    exact Option.some.inj found₁
  subst same
  refine ⟨held, found, there, len, kept, ?_⟩
  rw [relinked.eq, wrote.block, pointer?_putRecord, kept, pointerRecord_eq len]

omit aim wrote in
theorem Aim.relinked_on : refs.on d₂.card.files =
    (refs.on d₁.card.files).put .iap (iap.setRecord (offset + 1) pointer) :=
  relinked.toWrote.on faithful.separate faithful.named relinked.named

theorem Aim.relinked_mirrors : d₂.block.Mirrors table (refs.on d₂.card.files) := by
  rw [Aim.relinked_on faithful relinked, relinked.block]
  exact (aim.wrote_mirrors faithful wrote).setPointer
    (on_eq_some relinked.named relinked.found) pointer

variable (pointed : table.linkage kind = .type2 position)

include pointed

/-- After both writes the pointer byte of the entry names the slot, if there is a value. -/
theorem Aim.relinked_slot? : (refs.on d₂.card.files).slot? position offset =
    if new = [] then none else some slot := by
  obtain ⟨held, -, there, len, -, record_eq⟩ :=
    aim.relinked_record faithful wrote relinked pointed
  have place := relinked.place
  have high : slot ≤ maxPointedSlot := (pointed ▸ aim).slot_le
  rw [Aim.relinked_on faithful relinked, BlockFiles.slot?_setRecord
    (on_eq_some relinked.named relinked.found) (List.getElem?_eq_some_iff.1 there).1, if_pos rfl,
    record_eq]
  exact pointedSlot?_set_pointerTo (by omega) aim.low high new

theorem Aim.relinked_edited : (refs.on d.card.files).Edited (table.linkage kind) kind offset slot
    file record (refs.on d₂.card.files) := by
  obtain ⟨held, -, there, -, -, record_eq⟩ := aim.relinked_record faithful wrote relinked pointed
  have found : refs.on d₁.card.files .iap = some iap := on_eq_some relinked.named relinked.found
  have edited := aim.wrote_edited faithful wrote
  rw [pointed] at edited ⊢
  rw [Aim.relinked_on faithful relinked]
  refine edited.put_iap found (List.getElem?_eq_some_iff.1 there).1 fun other ne => ?_
  rw [record_eq, pointedSlot?_set_of_ne ne]
  unfold BlockFiles.slot?
  rw [found, Option.bind_some, there]
  rfl

end

/-- Whatever comes of an edit, what is held of the block is on the card. -/
theorem Ended.mirrors (faithful : Faithful table reference i refs offset d) {d' : Desk}
    {outcome : Except Error Unit}
    (ended : Ended refs (table.linkage kind) kind offset old new d outcome d') :
    d'.block.Mirrors table (refs.on d'.card.files) := by
  cases ended with
  | refused e d' block reads _ =>
    rw [block, reads.files]
    exact faithful.mirrors
  | halted id file slot record d₁ position e d' aim wrote _ _ _ block reads _ =>
    rw [block, reads.files]
    exact aim.wrote_mirrors faithful wrote
  | settled id file slot record d₁ aim wrote _ =>
    exact (aim.wrote_mirrors faithful wrote).applyValue ..
  | relinked id file slot record d₁ position iap pointers pointer d₂ aim wrote _ _ relinked =>
    exact (aim.relinked_mirrors faithful wrote relinked).applyValue ..

/-! ## An edit of a sound block -/

section

variable (ready : Ready table reference i refs offset d)
  (aim : Aim refs (table.linkage kind) kind offset old new d id file slot record)

include ready aim

theorem Aim.slot_cases {position : Nat} (pointed : table.linkage kind = .type2 position) :
    slot ≤ maxPointedSlot ∧
      ((refs.on d.card.files).slot? position offset = some slot ∨
        (refs.on d.card.files).slot? position offset = none ∧ old = []) ∧
      ∀ other, other < (refs.on d.card.files).addressCount → other ≠ offset →
        (refs.on d.card.files).slot? position other ≠ some slot := by
  have resolved := aim.resolved
  rw [pointed] at resolved
  exact (ready.guarded.resolveSlot_cases ready.mirrors ready.linked pointed ready.loaded
    ready.inside resolved).2

theorem Aim.target : Target table refs kind offset new d slot record := by
  obtain ⟨-, empty, blank⟩ := encodeField_spec aim.encoded
  refine ⟨empty, blank, aim.readable ready.faithful, aim.slot_of_positional,
    fun position other pointed => (aim.slot_cases ready pointed).2.2 other,
    fun position named pointed names => ?_, fun position pointed => ?_⟩
  · obtain ⟨-, here | ⟨none, -⟩, -⟩ := aim.slot_cases ready pointed
    · rw [here] at names
      exact (Option.some.inj names).symm
    · rw [none] at names
      cases names
  · obtain ⟨iap, held, found, there, -, kept⟩ := aim.pointers_on ready.faithful pointed
    exact ready.mirrors.slot?_eq (BlockState.isSome_of_pointer? kept) ready.inside position

section

variable {d₁ : Desk} (wrote : Wrote (putRecord kind slot record) d id file slot record d₁)

include wrote

omit ready aim in
theorem Wrote.store_eq (other : FieldKind) : d₁.block.store other =
    if other = kind then (d.block.store kind).map (·.put (slot - 1) record)
    else d.block.store other := by
  rw [wrote.block, store_putRecord]

omit ready aim in
theorem Wrote.entries_eq : d₁.block.entries = d.block.entries := by
  rw [wrote.block, entries_putRecord]

/-- The effect of an edit that has written the record of the field and could not write the pointer
byte. -/
theorem Aim.effect_of_halted {position : Nat} {e : Error} {d' : Desk}
    (pointed : table.linkage kind = .type2 position) (block : d'.block = d₁.block)
    (reads : d₁.card.Reads d'.card) (why : d₁.card.failures < d'.card.failures ∨
      ∀ id file, refs.file? .iap = some id → d₁.card.file? id = some file →
        file.records.length ≤ offset ∨ file.recordLen ≤ position) :
    Effect table refs kind offset old new d d' (.error e) slot file record := by
  refine ⟨aim.target ready, ?_, ?_, fun other => ?_, nofun, fun _ _ => ?_, ?_, nofun⟩
  · rw [reads.files]
    exact aim.wrote_edited ready.faithful wrote
  · rw [block, reads.files]
    exact aim.wrote_mirrors ready.faithful wrote
  · rw [block, wrote.store_eq]
  · rw [block, wrote.entries_eq]
  · intro position' named pointed' names
    rw [pointed] at pointed'
    cases pointed'
    rw [reads.files, aim.wrote_slot? ready.faithful wrote] at names
    obtain ⟨-, here | ⟨none, -⟩, -⟩ := aim.slot_cases ready pointed
    · rw [here] at names
      cases names
      refine ⟨rfl, .inr ⟨here, .inr ?_⟩⟩
      rcases why with failures | why
      · have follows := wrote.follows.failures
        omega
      -- an entry that names a slot has a pointer byte on the card
      · exfalso
        obtain ⟨iap, held, found, there, len, -⟩ := aim.pointers_on ready.faithful pointed
        have found' : refs.on d₁.card.files .iap = some iap := by
          rw [aim.wrote_on ready.faithful wrote,
            BlockFiles.put_of_ne _ (FileTag.ofKind_ne_iap kind).symm, found]
        obtain ⟨iapId, named, found'⟩ := Option.bind_eq_some_iff.1 found'
        have inside := (List.getElem?_eq_some_iff.1 there).1
        have pointer : pointedSlot? held position = some slot := by
          rw [← here]
          unfold BlockFiles.slot?
          rw [found, Option.bind_some, there]
          rfl
        have inside' := lt_of_pointedSlot? pointer
        rcases why iapId iap named found' with short | short <;> omega
    · rw [none] at names
      cases names

/-- The effect of an edit that has no pointer byte to write. -/
theorem Aim.effect_of_settled
    (idle : table.linkage kind = .type1 ∨ old.isEmpty = new.isEmpty) :
    Effect table refs kind offset old new d
      { d₁ with block := applyValue kind offset record d₁.block } (.ok ()) slot file record := by
  have target := aim.target ready
  have slots (position other : Nat) : (refs.on d₁.card.files).slot? position other =
      (refs.on d.card.files).slot? position other :=
    aim.wrote_slot? ready.faithful wrote position other
  have same (position : Nat) (pointed : table.linkage kind = .type2 position) :
      old = [] ↔ new = [] := by
    rcases idle with own | same
    · rw [own] at pointed
      cases pointed
    · rw [← List.isEmpty_iff, ← List.isEmpty_iff, same]
  have edited := aim.wrote_edited ready.faithful wrote
  refine ⟨target, edited, (aim.wrote_mirrors ready.faithful wrote).applyValue .., fun other => ?_,
    fun _ => ?_, nofun, ?_, ?_⟩
  · rw [store_applyValue, wrote.store_eq]
  · rw [entries_applyValue, wrote.entries_eq]
    simp only [target.empty]
  · intro position named pointed names
    have names : (refs.on d₁.card.files).slot? position offset = some named := names
    rw [slots] at names
    obtain ⟨-, here | ⟨none, -⟩, -⟩ := aim.slot_cases ready pointed
    · rw [here] at names
      cases names
      refine ⟨rfl, ?_⟩
      by_cases value : new = []
      · exact .inr ⟨here, .inl ((same position pointed).2 value)⟩
      · exact .inl value
    · rw [none] at names
      cases names
  · intro _ careful position pointed
    have value : new ≠ [] := fun none => careful ⟨(same position pointed).2 none, none⟩
    rw [if_neg value]
    show (refs.on d₁.card.files).slot? position offset = _
    rw [slots]
    obtain ⟨-, here | ⟨-, none⟩, -⟩ := aim.slot_cases ready pointed
    · exact here
    · exact absurd ((same position pointed).1 none) value

/-- The effect of an edit that has written the pointer byte as well. -/
theorem Aim.effect_of_relinked {position : Nat} {iapId : FileId} {iap : RecordFile}
    {pointer : Bytes} {d₂ : Desk} (pointed : table.linkage kind = .type2 position)
    (relinked : Relinked refs offset position (pointerTo slot new) d₁ iapId iap pointer d₂) :
    Effect table refs kind offset old new d
      { d₂ with block := applyValue kind offset record d₂.block } (.ok ()) slot file record := by
  have names := aim.relinked_slot? ready.faithful wrote relinked pointed
  have edited := aim.relinked_edited ready.faithful wrote relinked pointed
  have target := aim.target ready
  refine ⟨target, edited, (aim.relinked_mirrors ready.faithful wrote relinked).applyValue ..,
    fun other => ?_, fun _ => ?_, nofun, ?_, ?_⟩
  · rw [store_applyValue, relinked.block, store_setPointer, wrote.store_eq]
  · rw [entries_applyValue, relinked.block, entries_setPointer, wrote.entries_eq]
    simp only [target.empty]
  · intro position' named pointed' names'
    rw [pointed] at pointed'
    cases pointed'
    have names' : (refs.on d₂.card.files).slot? position offset = some named := names'
    rw [names] at names'
    split at names'
    · cases names'
    · next value =>
      cases names'
      exact ⟨rfl, .inl value⟩
  · intro _ _ position' pointed'
    rw [pointed] at pointed'
    cases pointed'
    exact names

end

end

end

theorem Ended.effect {kind : FieldKind} {offset : Nat} {old new : Text} {d d' : Desk}
    {outcome : Except Error Unit} (ready : Ready table reference i refs offset d)
    (ended : Ended refs (table.linkage kind) kind offset old new d outcome d') :
    (∃ e, outcome = .error e ∧ d'.block = d.block ∧ d.card.Reads d'.card) ∨
    ∃ slot file record, Effect table refs kind offset old new d d' outcome slot file record := by
  cases ended with
  | refused e d' block reads _ => exact .inl ⟨e, rfl, block, reads⟩
  | halted id file slot record d₁ position e d' aim wrote pointed _ _ block reads why =>
    exact .inr ⟨slot, file, record, aim.effect_of_halted ready wrote pointed block reads why⟩
  | settled id file slot record d₁ aim wrote idle =>
    exact .inr ⟨slot, file, record, aim.effect_of_settled ready wrote idle⟩
  | relinked id file slot record d₁ position iap pointers pointer d₂ aim wrote pointed _ relinked =>
    exact .inr ⟨slot, file, record, aim.effect_of_relinked ready wrote pointed relinked⟩

end UsimPhonebook.Desk
