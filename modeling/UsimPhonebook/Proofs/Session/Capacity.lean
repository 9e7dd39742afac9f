import UsimPhonebook.Proofs.Session.Footprint
import UsimPhonebook.Proofs.Session.Occupancy
import UsimPhonebook.Proofs.Session.Ownership

/-! # What fits is what is reported

The free slots of an entry are counted by the flags of a store, and an update asks pointer bytes,
flags and the card. On a card without faults they agree (`Session.capacity_agrees`).

* Under index-pointer linkage a value that is added goes to the first free slot, which is then in
  use, and to no slot that a pointer byte cannot name. So a row of additions takes the free slots
  that can be named one by one, and when none is left no request is made any more
  (`Session.Supplied.add`, `Session.Supplied.full`, `Session.Supplied.run`).
* Under positional linkage the slot of an entry is there or not. The store that is held is as long
  as the file, as far as there are entries, and so tells which (`Session.Supplied.lt_size_iff`).
-/

namespace UsimPhonebook

/-! ## Edits on a calm card -/

/-- An entry that names no slot gets the first free one that a pointer byte can name. -/
theorem BlockState.resolveSlot_of_unnamed {b : BlockState} {kind : FieldKind} {place offset : Nat}
    {held : Bytes} {store : FieldStore} (kept : b.pointer? offset = some held)
    (unnamed : pointedSlot? held place = none) (stored : b.store kind = some store) :
    b.resolveSlot kind (.type2 place) offset [] =
      match store.freeBelow maxPointedSlot with
      | [] => .error .noFreeSlot
      | index :: _ => .ok (index + 1) := by
  unfold resolveSlot
  simp only [kept, unnamed, stored, ne_eq, not_true_eq_false, if_false]
  cases free : store.freeBelow maxPointedSlot with
  | nil =>
    cases first : store.firstFree? with
    | none => rfl
    | some index => exact if_neg (Nat.not_lt.2 (FieldStore.le_of_freeBelow_eq_nil free first))
  | cons index rest =>
    obtain ⟨first, small⟩ := FieldStore.firstFree?_of_freeBelow free
    rw [first]
    exact if_pos small

namespace Desk

variable {table : Reference.Table} {reference : FileId} {i : Nat} {refs : Reference.Block}
  {kind : FieldKind} {offset slot : Nat} {old new : Text} {d : Desk} {id : FileId}
  {file : RecordFile} {record : Bytes}

section

variable (calm : d.card.faults = [])
  (aim : Aim refs (table.linkage kind) kind offset old new d id file slot record)

include calm aim

/-- Without faults an edit that has an aim and no pointer byte to write succeeds. -/
theorem Aim.ok_of_idle (idle : table.linkage kind = .type1 ∨ old.isEmpty = new.isEmpty) :
    ((edit refs (table.linkage kind) kind offset old new).perform d).1 = .ok () := by
  obtain ⟨d₁, -, performed⟩ := edit_of_aim aim (by simp [calm]) (by simp [calm])
  rw [performed, relink_idle d₁ idle]
  rfl

/-- One that has a pointer byte to write succeeds if the record that is held has this byte. -/
theorem Aim.relinked_of_calm {place : Nat} {held : Bytes}
    (faithful : Faithful table reference i refs offset d)
    (pointed : table.linkage kind = .type2 place) (differ : old.isEmpty ≠ new.isEmpty)
    (kept : d.block.pointer? offset = some held) (room : place < held.length) :
    ∃ d₁ iap pointers pointer d₂, Wrote (putRecord kind slot record) d id file slot record d₁ ∧
      Relinked refs offset place (pointerTo slot new) d₁ iap pointers pointer d₂ ∧
      (edit refs (table.linkage kind) kind offset old new).perform d =
        (.ok (), { d₂ with block := applyValue kind offset record d₂.block }) := by
  obtain ⟨d₁, wrote, performed⟩ := edit_of_aim aim (by simp [calm]) (by simp [calm])
  obtain ⟨pointers, held', found, there, length, kept'⟩ := aim.pointers_on faithful pointed
  rw [kept] at kept'
  cases kept'
  obtain ⟨iap, named, found⟩ := Option.bind_eq_some_iff.1 found
  have apart : iap ≠ id := faithful.separate.ne_of_tag faithful.named faithful.named named aim.named
    (FileTag.ofKind_ne_iap kind).symm
  have found₁ : d₁.card.file? iap = some pointers :=
    (Card.file?_of_replace aim.found wrote.files iap).trans ((if_neg apart).trans found)
  have calm₁ : d₁.card.faults = [] := wrote.faults.trans calm
  rw [length] at room
  obtain ⟨pointer, d₂, ok, relinked⟩ := rewritePointer_of_calm named found₁
    (List.getElem?_eq_some_iff.1 there).1 (pointerTo slot new) room (by simp [calm₁])
    (by simp [calm₁])
  refine ⟨d₁, iap, pointers, pointer, d₂, wrote, relinked, ?_⟩
  rw [performed, pointed, relink_eq differ, ok]
  rfl

end

/-- An addition to an entry that names no slot aims at the first free one. -/
theorem aim_of_free {place index : Nat} {held : Bytes} {store : FieldStore} {rest : List Nat}
    (faithful : Faithful table reference i refs offset d)
    (pointed : table.linkage kind = .type2 place) (kept : d.block.pointer? offset = some held)
    (unnamed : pointedSlot? held place = none) (stored : d.block.store kind = some store)
    (free : store.freeBelow maxPointedSlot = index :: rest)
    (named : refs.file? (.ofKind kind) = some id) (found : d.card.file? id = some file)
    (small : offset + 1 ≤ 255)
    (encoded : kind.encode file.recordLen new (some (UInt8.ofNat (offset + 1))) = .ok record) :
    Aim refs (table.linkage kind) kind offset [] new d id file (index + 1) record where
  named := named
  found := found
  resolved := by rw [pointed, BlockState.resolveSlot_of_unnamed kept unnamed stored, free]
  low := by omega
  high := by
    obtain ⟨-, flag⟩ := FieldStore.mem_freeBelow.1 (free ▸ List.mem_cons_self)
    have inside := (List.getElem?_eq_some_iff.1 flag).1
    have records := faithful.mirrors.records_eq stored (on_eq_some named found)
    rw [pointed] at records
    rwa [FieldStore.length_flags, FieldStore.size_eq, records] at inside
  encoded := by
    rw [pointed]
    unfold encodeField backLink recordByte
    rw [if_pos (by omega)]
    exact encoded

theorem edit_out_of_range (calm : d.card.faults = []) {linkage : Linkage}
    (named : refs.file? (.ofKind kind) = some id) (found : d.card.file? id = some file)
    (resolved : d.block.resolveSlot kind linkage offset old = .ok slot)
    (high : file.records.length < slot) (new : Text) :
    ∃ d', (edit refs linkage kind offset old new).perform d =
        (.error (.slotOutOfRange slot file.records.length), d') ∧
      d'.block = d.block ∧ d'.card.files = d.card.files := by
  have asked := ask_of_calm (.size id) (calm_of_faultless calm _) found
  have reads : d.card.Reads (d.ask (.size id)).2.card := ask_reads (.inl fun h => by cases h)
  have block := block_ask d (.size id)
  rcases h : d.ask (.size id) with ⟨outcome, d₁⟩
  rw [h] at asked reads block
  obtain ⟨rfl, -⟩ := asked
  refine ⟨d₁, ?_, block, reads.files⟩
  rw [perform_edit named resolved h, checkSlot_of_lt (show file.geometry.count < slot from high)]
  rfl

end Desk

namespace Session

/-! ## Additions -/

/-- A value that is to be added to the entry at a position, which is the one at `offset` in its
block. -/
structure Addition where
  position : Nat
  offset : Nat
  value : Text
  deriving DecidableEq, Repr

/-- The command that adds it. -/
def Addition.command (a : Addition) (kind : FieldKind) : Command :=
  .update a.position [] a.value kind

/-- The index-pointer record that is held of an entry. -/
def pointer? (s : Session) (block offset : Nat) : Option Bytes :=
  s.blocks[block]?.bind (·.pointer? offset)

/-- The entry at a position is the one at `offset` in block `i`, and its pointer byte is held and
names no slot. -/
structure Vacant (s : Session) (kind : FieldKind) (position i offset : Nat) : Prop where
  located : s.locate? position = some (i, offset)
  unnamed : ∃ place record, s.linkage kind = .type2 place ∧ s.pointer? i offset = some record ∧
    place < record.length ∧ pointedSlot? record place = none

/-- Nothing but a slot is wanting to add a value to an entry of block `i`: its pointer byte names
none, the number of its address record is one byte, and there is a record for the value. -/
structure Addable (s : Session) (kind : FieldKind) (i recordLen : Nat) (a : Addition) : Prop
    extends s.Vacant kind a.position i a.offset where
  small : a.offset + 1 ≤ 255
  filled : a.value ≠ []
  accepted : kind.Accepts recordLen a.value

/-- No fault is pending, what is held is on the card, and of block `i` the records of a kind are
held, which are in a file with records of this length. -/
structure Supplied (s : Session) (kind : FieldKind) (i : Nat) (id : FileId) (recordLen : Nat)
    (store : FieldStore) : Prop where
  faithful : s.Faithful
  calm : s.card.faults = []
  stored : s.store? kind i = some store
  named : ∃ table refs, s.table = some table ∧ table.block? i = some refs ∧
    refs.file? (.ofKind kind) = some id
  found : ∃ file, s.card.file? id = some file ∧ file.recordLen = recordLen

variable {s : Session} {kind : FieldKind} {position i offset recordLen : Nat} {id : FileId}
  {store : FieldStore} {table : Reference.Table} {refs : Reference.Block} {b : BlockState}

theorem Supplied.visit (supplied : s.Supplied kind i id recordLen store)
    (located : s.locate? position = some (i, offset)) :
    ∃ table refs b, s.Visit position i offset table refs b ∧
      refs.file? (.ofKind kind) = some id ∧ b.store kind = some store := by
  obtain ⟨table, refs, held, named, called⟩ := supplied.named
  obtain ⟨b, here, inside⟩ := locateIn_eq_some located
  obtain ⟨b', here', stored⟩ := Option.bind_eq_some_iff.1 supplied.stored
  rw [here] at here'
  cases here'
  exact ⟨table, refs, b, ⟨located, held, named, here, inside⟩, called, stored⟩

theorem Visit.linkage_eq (v : s.Visit position i offset table refs b) (kind : FieldKind) :
    s.linkage kind = table.linkage kind := linkage_of_table v.held kind

theorem Visit.pointer?_eq (v : s.Visit position i offset table refs b) (other : Nat) :
    s.pointer? i other = b.pointer? other := by
  unfold pointer?
  rw [v.here]
  rfl

/-! ## Index pointers -/

/-- When no slot is left that a pointer byte can name, to add a value fails without a request. -/
theorem Supplied.full (supplied : s.Supplied kind i id recordLen store)
    (vacant : s.Vacant kind position i offset) (none : store.freeBelow maxPointedSlot = [])
    (new : Text) : s.obey (.update position [] new kind) = (some .noFreeSlot, s) := by
  obtain ⟨table, refs, b, v, named, stored⟩ := supplied.visit vacant.located
  obtain ⟨place, record, linkage, kept, -, unnamed⟩ := vacant.unnamed
  rw [v.pointer?_eq] at kept
  rw [v.linkage_eq] at linkage
  have unresolved := BlockState.resolveSlot_of_unnamed kept unnamed stored
  rw [none, ← linkage] at unresolved
  rw [v.obey_eq, Desk.edit_of_unresolved (d := ⟨s.channel, b⟩) named unresolved]
  dsimp only
  rw [withDesk_eq_self v.here]
  rfl

/-- After work on its block an entry waits as before if its pointer byte is as it was. -/
theorem Addable.withDesk {a : Addition} (addable : s.Addable kind i recordLen a)
    (v : s.Visit position i offset table refs b) {d : Desk}
    (count : d.block.entryCount = b.entryCount)
    (same : d.block.pointer? a.offset = b.pointer? a.offset) :
    (s.withDesk i d).Addable kind i recordLen a where
  located := (locateIn_set v.here count a.position).trans addable.located
  unnamed := by
    obtain ⟨place, record, linkage, kept, unnamed⟩ := addable.unnamed
    refine ⟨place, record, ?_, ?_, unnamed⟩
    · rw [(v.withDesk count).linkage_eq, ← v.linkage_eq]
      exact linkage
    · rw [(v.withDesk count).pointer?_eq, same, ← v.pointer?_eq]
      exact kept
  small := addable.small
  filled := addable.filled
  accepted := addable.accepted

/-- After an edit of an entry of the block a record is in the store. -/
theorem Supplied.withDesk (supplied : s.Supplied kind i id recordLen store)
    (v : s.Visit position i offset table refs b) {old new : Text} {slot : Nat} {record : Bytes}
    {d : Desk} (ended : Desk.Ended refs (table.linkage kind) kind offset old new ⟨s.channel, b⟩
      (.ok ()) d)
    (stores : ∀ other, d.block.store other =
      if other = kind then (b.store kind).map (·.put (slot - 1) record) else b.store other) :
    (s.withDesk i d).Supplied kind i id recordLen (store.put (slot - 1) record) where
  faithful := by
    have desk := supplied.faithful.desk v
    exact supplied.faithful.withDesk v.held v.named (ended.confined desk.separate desk.named)
      (ended.mirrors desk)
  calm := ended.sameShape.2.1.faultless supplied.calm
  stored := by rw [v.store?_eq stores, if_pos ⟨rfl, rfl⟩, supplied.stored, Option.map_some]
  named := supplied.named
  found := by
    obtain ⟨file, found, length⟩ := supplied.found
    obtain ⟨file', found', geometry⟩ := ended.sameShape.1.exists_file found
    exact ⟨file', found', (congrArg Geometry.recordLen geometry).trans length⟩

/-- While one is left, to add a value succeeds and takes the first of them, and the other entries
wait as before. -/
theorem Supplied.add (supplied : s.Supplied kind i id recordLen store) {a : Addition}
    (addable : s.Addable kind i recordLen a) {index : Nat} {rest : List Nat}
    (free : store.freeBelow maxPointedSlot = index :: rest) :
    let outcome := s.obey (a.command kind)
    ∃ record, kind.encode recordLen a.value (some (UInt8.ofNat (a.offset + 1))) = .ok record ∧
      outcome.1 = none ∧ outcome.2.slotOf? kind i a.offset = some (index + 1) ∧
      outcome.2.card.record? id (index + 1) = some record ∧
      outcome.2.Supplied kind i id recordLen (store.put index record) ∧
      ∀ other : Addition, other.position ≠ a.position → s.Addable kind i recordLen other →
        outcome.2.Addable kind i recordLen other := by
  intro outcome
  obtain ⟨table, refs, b, v, named, stored⟩ := supplied.visit addable.located
  obtain ⟨place, held, linkage, kept, room, unnamed⟩ := addable.unnamed
  obtain ⟨file, found, rfl⟩ := supplied.found
  obtain ⟨record, encoded⟩ := addable.accepted.encode (some (UInt8.ofNat (a.offset + 1)))
  have faithful := supplied.faithful.desk v
  rw [v.linkage_eq] at linkage
  rw [v.pointer?_eq] at kept
  have aim := Desk.aim_of_free faithful linkage kept unnamed stored free named found addable.small
    encoded
  have differ : ([] : Text).isEmpty ≠ a.value.isEmpty := by simp [addable.filled]
  obtain ⟨d₁, iap, pointers, pointer, d₂, wrote, relinked, performed⟩ :=
    aim.relinked_of_calm supplied.calm faithful linkage differ kept room
  have ended := Desk.Ended.relinked id file (index + 1) record d₁ place iap pointers pointer d₂ aim
    wrote linkage differ relinked
  have done : outcome = (none, s.withDesk i
      { d₂ with block := Desk.applyValue kind a.offset record d₂.block }) := by
    show s.obey (.update _ _ _ _) = _
    rw [v.obey_eq, performed]
    rfl
  have printed := aim.printed_of_relinked faithful wrote linkage relinked differ
  obtain ⟨others, own⟩ := pointer?_of_relinked aim.low (linkage ▸ aim).slot_le addable.filled kept
    wrote relinked
  have stores (other : FieldKind) : (Desk.applyValue kind a.offset record d₂.block).store other =
      if other = kind then (b.store kind).map (·.put (index + 1 - 1) record)
      else b.store other := by
    rw [Desk.store_applyValue, relinked.block, Desk.store_setPointer, wrote.store_eq]
  have count : (Desk.applyValue kind a.offset record d₂.block).entryCount = b.entryCount := by
    refine (BlockState.entryCount_modifyEntry ..).trans ?_
    unfold BlockState.entryCount
    rw [relinked.block, Desk.entries_setPointer, wrote.entries_eq]
  rw [done]
  refine ⟨record, encoded, rfl, ?_, printed.record, supplied.withDesk v ended stores,
    fun other ne waits => waits.withDesk v count (others _ fun same => ne ?_)⟩
  · rw [v.slotOf?_withDesk linkage]
    exact own
  · exact locateIn_injective (same ▸ waits.located) addable.located

/-- What an addition comes to when this slot, or none, is left for it. -/
def Addition.Ends (a : Addition) (kind : FieldKind) (i : Nat) (id : FileId) (recordLen : Nat)
    (s : Session) : Option Nat → Prop
  | some index =>
    (s.obey (a.command kind)).1 = none ∧
    (s.obey (a.command kind)).2.slotOf? kind i a.offset = some (index + 1) ∧
    ∃ record, kind.encode recordLen a.value (some (UInt8.ofNat (a.offset + 1))) = .ok record ∧
      (s.obey (a.command kind)).2.card.record? id (index + 1) = some record
  | none => s.obey (a.command kind) = (some .noFreeSlot, s)

/-- A row of additions to different entries takes the free slots one by one, as long as there are
any. -/
theorem Supplied.run (supplied : s.Supplied kind i id recordLen store)
    {additions : List Addition} (different : (additions.map (·.position)).Nodup)
    (addable : ∀ a ∈ additions, s.Addable kind i recordLen a) {k : Nat} {a : Addition}
    (here : additions[k]? = some a) :
    a.Ends kind i id recordLen (s.run ((additions.take k).map (·.command kind)))
      (store.freeBelow maxPointedSlot)[k]? := by
  induction additions generalizing s store k with
  | nil => cases here
  | cons first rest ih =>
    obtain ⟨fresh, different⟩ := List.nodup_cons.1 different
    have addable₁ := addable first List.mem_cons_self
    have others (other : Addition) (later : other ∈ rest) : s.Addable kind i recordLen other :=
      addable other (List.mem_cons_of_mem _ later)
    cases free : store.freeBelow maxPointedSlot with
    | nil =>
      have refused : s.obey (first.command kind) = (some .noFreeSlot, s) :=
        supplied.full addable₁.toVacant free first.value
      cases k with
      | zero =>
        cases here
        exact refused
      | succ k =>
        have later := ih supplied different others here
        rw [List.take_succ_cons, List.map_cons, run_cons, refused]
        rwa [free] at later
    | cons index slots =>
      obtain ⟨record, encoded, ok, named, written, supplied', waiting⟩ :=
        supplied.add addable₁ free
      cases k with
      | zero =>
        cases here
        exact ⟨ok, named, record, encoded, written⟩
      | succ k =>
        -- the rest come to a session with one free slot less
        have filled : Bytes.isBlank record = false := by
          rw [Bool.eq_false_iff, ne_eq, (FieldKind.encode_spec kind encoded).2.2]
          exact addable₁.filled
        have later := ih supplied' different (fun other later => waiting other
          (fun same => fresh (List.mem_map.2 ⟨other, later, same⟩)) (others other later)) here
        rw [FieldStore.freeBelow_put free filled] at later
        exact later

theorem Supplied.refused (supplied : s.Supplied kind i id recordLen store)
    (vacant : s.Vacant kind position i offset) (none : s.freeForEntry kind position = 0)
    (new : Text) : s.obey (.update position [] new kind) = (some .noFreeSlot, s) := by
  refine supplied.full vacant (FieldStore.freeBelow_eq_nil_of_freeCount ?_ _) new
  obtain ⟨table, refs, b, v, -, stored⟩ := supplied.visit vacant.located
  obtain ⟨place, record, linkage, kept, -⟩ := vacant.unnamed
  rw [v.pointer?_eq] at kept
  have pointers := BlockState.isSome_of_pointer? kept
  unfold freeForEntry at none
  rw [vacant.located] at none
  dsimp only at none
  rw [v.here] at none
  unfold freeForOffset freeInBlock at none
  rw [linkage] at none
  dsimp only at none
  rw [if_pos pointers, v.here, Option.bind_some, stored] at none
  exact none

/-! ## Positional linkage -/

theorem Visit.entryAt?_eq (v : s.Visit position i offset table refs b) :
    s.entryAt? position = b.entryAt? offset := by
  unfold entryAt?
  rw [v.located]
  dsimp only
  rw [v.here]
  rfl

section

variable (supplied : s.Supplied kind i id recordLen store)
  (located : s.locate? position = some (i, offset)) (own : s.linkage kind = .type1)
  {file : RecordFile} (found : s.card.file? id = some file)

include supplied located own found

theorem Supplied.lt_size_iff : offset < store.size ↔ offset < file.records.length := by
  obtain ⟨table, refs, b, v, named, stored⟩ := supplied.visit located
  have faithful := supplied.faithful.desk v
  have there := faithful.inside
  have records := faithful.mirrors.records_eq stored (Desk.on_eq_some named found)
  rw [v.linkage_eq] at own
  rw [own] at records
  rw [FieldStore.size_eq, records, List.length_take]
  omega

/-- An entry with a slot can be given any value for which there is a record. -/
theorem Supplied.within (inside : offset < store.size) {new : Text}
    (accepted : kind.Accepts file.recordLen new) (old : Text) :
    (s.obey (.update position old new kind)).1 = none := by
  have high := (supplied.lt_size_iff located own found).1 inside
  obtain ⟨table, refs, b, v, named, -⟩ := supplied.visit located
  obtain ⟨record, encoded⟩ := accepted.encode none
  rw [v.linkage_eq] at own
  have aim : Desk.Aim refs (table.linkage kind) kind offset old new ⟨s.channel, b⟩ id file
      (offset + 1) record := by
    rw [own]
    exact ⟨named, found, rfl, by omega, high, encoded⟩
  rw [v.obey_eq]
  dsimp only
  rw [aim.ok_of_idle supplied.calm (.inl own)]
  rfl

/-- An update of one without a slot is refused, and nothing is written. -/
theorem Supplied.beyond (outside : store.size ≤ offset) (old new : Text) :
    let outcome := s.obey (.update position old new kind)
    outcome.1 = some (.slotOutOfRange (offset + 1) file.records.length) ∧
      outcome.2 = { s with channel := outcome.2.channel } ∧
      outcome.2.card.files = s.card.files := by
  intro outcome
  have short : ¬ offset < file.records.length := fun inside =>
    Nat.not_lt.2 outside ((supplied.lt_size_iff located own found).2 inside)
  obtain ⟨table, refs, b, v, named, -⟩ := supplied.visit located
  rw [v.linkage_eq] at own
  have resolved : b.resolveSlot kind (table.linkage kind) offset old = .ok (offset + 1) := by
    rw [own]
    rfl
  obtain ⟨d', performed, block, files⟩ := Desk.edit_out_of_range (d := ⟨s.channel, b⟩)
    supplied.calm named found resolved (by omega) new
  have done : outcome = (some (.slotOutOfRange (offset + 1) file.records.length),
      s.withDesk i d') := by
    show s.obey _ = _
    rw [v.obey_eq, performed]
    rfl
  have blocks : s.blocks.set i d'.block = s.blocks := by
    rw [block]
    exact congrArg Session.blocks (withDesk_eq_self v.here)
  rw [done]
  refine ⟨rfl, ?_, files⟩
  show ({ s with channel := d'.channel, blocks := s.blocks.set i d'.block } : Session) = _
  rw [blocks]
  rfl

end

/-- For an additional number no free slot is reported if the entry has no slot. Otherwise some are,
unless every entry of the block has a slot and this one has a number already. -/
theorem Visit.freeForEntry_positional (v : s.Visit position i offset table refs b)
    (own : table.linkage .anr = .type1) (stored : b.store .anr = some store)
    (tallied : b.Tallied .type1 .anr) :
    (store.size ≤ offset → s.freeForEntry .anr position = 0) ∧
      (offset < store.size → s.freeForEntry .anr position = 0 →
        s.blockEntryCount i ≤ store.size ∧
        ∀ e, s.entryAt? position = some e → e.values .anr ≠ []) := by
  have reported : s.freeForEntry .anr position =
      if b.entryCount ≤ store.size then store.freeCount
      else if store.size ≤ offset then 0 else unbounded := by
    have held : b.anr = some store := stored
    unfold freeForEntry
    rw [v.located]
    dsimp only
    rw [v.here]
    unfold freeForOffset
    rw [v.linkage_eq, own]
    dsimp only
    rw [held]
  have there := v.inside
  rw [reported]
  refine ⟨fun outside => ?_, fun inside zero => ?_⟩
  · rw [if_neg (by omega), if_pos outside]
  · rw [if_neg (show ¬ store.size ≤ offset by omega)] at zero
    split at zero
    · next room =>
      refine ⟨?_, fun e entry none => ?_⟩
      · unfold blockEntryCount
        rwa [v.here]
      · rw [v.entryAt?_eq] at entry
        have unused := tallied.free_of_valueless v.loaded stored entry none
        have slot := List.getElem?_eq_getElem inside
        have free := List.countP_eq_zero.1 zero _ (List.getElem_mem inside)
        simp [unused _ slot] at free
    · cases zero

/-! ## Both -/

/-- At any point of any history at which no fault is pending, the free slots that are reported for
the entries of a block are those that updates find, if the records of the kind are held.

Under index-pointer linkage additions to entries that name no slot, one after the other, take the
free slots up to number 127 in ascending order, each of them once. They succeed as long as there
are any, and from then on they fail without a request. An addition to such an entry fails if no free
slot is reported for it.

Under positional linkage an update succeeds if the store that is held has a slot for the entry.
Otherwise it is refused and writes nothing, and for additional numbers no free slot is reported. For
an entry that has a slot some are reported, unless every entry of the block has one and this entry
has a number already. -/
theorem capacity_agrees {card : Card} {options : Options}
    (regular : Regular options.referenceFile card.files) (events : List Event) (kind : FieldKind)
    (i : Nat) (store : FieldStore) :
    let s := (start card options).after events
    let slots := store.freeBelow maxPointedSlot
    s.card.faults = [] → s.store? kind i = some store →
    (slots.length = (store.flags.take maxPointedSlot).count false ∧ slots.Pairwise (· < ·) ∧
      ∀ index ∈ slots, index < maxPointedSlot ∧ store.flags[index]? = some false) ∧
    ∃ table refs id file, s.table = some table ∧ table.block? i = some refs ∧
      refs.file? (.ofKind kind) = some id ∧ s.card.file? id = some file ∧
      (∀ additions : List Addition, (additions.map (·.position)).Nodup →
        (∀ a ∈ additions, s.Addable kind i file.recordLen a) →
        ∀ (k : Nat) (a : Addition), additions[k]? = some a →
          a.Ends kind i id file.recordLen (s.run ((additions.take k).map (·.command kind)))
            slots[k]?) ∧
      (∀ position offset new, s.Vacant kind position i offset → s.freeForEntry kind position = 0 →
        s.obey (.update position [] new kind) = (some .noFreeSlot, s)) ∧
      (s.linkage kind = .type1 → ∀ position offset old new,
        s.locate? position = some (i, offset) →
        let outcome := s.obey (.update position old new kind)
        (offset < store.size → kind.Accepts file.recordLen new → outcome.1 = none) ∧
        (store.size ≤ offset →
          outcome.1 = some (.slotOutOfRange (offset + 1) file.records.length) ∧
          outcome.2 = { s with channel := outcome.2.channel } ∧
          outcome.2.card.files = s.card.files) ∧
        (kind = .anr → (store.size ≤ offset → s.freeForEntry kind position = 0) ∧
          (offset < store.size → s.freeForEntry kind position = 0 →
            s.blockEntryCount i ≤ store.size ∧
            ∀ e, s.entryAt? position = some e → e.values kind ≠ []))) := by
  intro s slots calm stored
  have faithful : s.Faithful := (faithful_start regular).after events
  obtain ⟨b, here, kept⟩ := Option.bind_eq_some_iff.1 stored
  obtain ⟨table, refs, held, named, tallied⟩ :=
    (endures_allTallied.after card options events).block here
  have mirrors : b.Mirrors table (refs.on s.card.files) :=
    faithful.upholds table i refs b held named here
  obtain ⟨id, file, called, found, -⟩ := exists_of_fieldRecords (mirrors.stored kind store kept).2
  have supplied : s.Supplied kind i id file.recordLen store :=
    ⟨faithful, calm, stored, ⟨table, refs, held, named, called⟩, file, found, rfl⟩
  refine ⟨⟨store.length_freeBelow _, store.pairwise_freeBelow _,
      fun index => FieldStore.mem_freeBelow.1⟩, table, refs, id, file, held, named, called, found,
    fun additions different addable k a => supplied.run different addable,
    fun position offset new vacant none => supplied.refused vacant none new,
    fun own position offset old new located =>
      ⟨fun inside accepted => supplied.within located own found inside accepted old,
        fun outside => supplied.beyond located own found outside old new, ?_⟩⟩
  rintro rfl
  obtain ⟨b', here', inside⟩ := locateIn_eq_some located
  rw [here] at here'
  cases here'
  have v : s.Visit position i offset table refs b := ⟨located, held, named, here, inside⟩
  have own : table.linkage .anr = .type1 := (v.linkage_eq .anr).symm.trans own
  exact v.freeForEntry_positional own kept (own ▸ tallied .anr)

/-- A block of four entries, with three additional-number records that are linked by position and
three email records that are linked by index-pointer records. The first entry has the second email
record. -/
def unevenCard : Card where
  files := ⟨[
    (.ofNat 0x4F11, ⟨17, [Bytes.blank 17, Bytes.blank 17, Bytes.blank 17]⟩),
    (.ofNat 0x4F25, ⟨1, [[0x02], [0x00], [0x00], [0x00]]⟩),
    (.ofNat 0x4F30, ⟨20, [[0xA8, 0x0C, 0xC0, 0x02, 0x4F, 0x3A, 0xC1, 0x02, 0x4F, 0x25,
      0xC4, 0x02, 0x4F, 0x11, 0xA9, 0x04, 0xCA, 0x02, 0x4F, 0x50]]⟩),
    (.ofNat 0x4F3A, ⟨14, [Bytes.blank 14, Bytes.blank 14, Bytes.blank 14, Bytes.blank 14]⟩),
    (.ofNat 0x4F50, ⟨6, [Bytes.blank 6, [0x61, 0xFF, 0xFF, 0xFF, 0xFF, 0x01], Bytes.blank 6]⟩)]⟩

/-- Of three emails that are added two find a slot, on either side of the one in use. The last entry
can have no additional number. -/
theorem capacity_unevenCard :
    let s := (start unevenCard {}).after [.command .load]
    let b : Addition := ⟨1, 1, ['b']⟩
    let c : Addition := ⟨2, 2, ['c']⟩
    let d : Addition := ⟨3, 3, ['d']⟩
    b.Ends .email 0 (.ofNat 0x4F50) 6 s (some 0) ∧
      c.Ends .email 0 (.ofNat 0x4F50) 6 (s.run [b.command .email]) (some 2) ∧
      d.Ends .email 0 (.ofNat 0x4F50) 6 (s.run [b.command .email, c.command .email]) none ∧
      s.freeForEntry .anr 3 = 0 ∧
      (s.obey (.update 3 [] ['1'] .anr)).1 = some (.slotOutOfRange 4 3) := by
  intro s b c d
  have regular : Regular ({} : Options).referenceFile unevenCard.files := by decide +kernel
  have calm : s.card.faults = [] := by decide +kernel
  have called : ∀ refs ∈ (s.table.map (·.blocks)).getD [],
      refs.file? .email = some (.ofNat 0x4F50) ∧ refs.file? .anr = some (.ofNat 0x4F11) := by
    decide +kernel
  have length : (s.card.file? (.ofNat 0x4F50)).map (·.recordLen) = some 6 := by decide +kernel
  have count : (s.card.file? (.ofNat 0x4F11)).map (·.records.length) = some 3 := by decide +kernel
  have free : (s.store? .email 0).map (·.freeBelow maxPointedSlot) = some [0, 2] := by
    decide +kernel
  have size : (s.store? .anr 0).map (·.size) = some 3 := by decide +kernel
  have addable (a : Addition) (h : a ∈ [b, c, d]) : s.Addable .email 0 6 a := by
    simp only [List.mem_cons, List.not_mem_nil, or_false] at h
    rcases h with rfl | rfl | rfl
    all_goals exact ⟨⟨by decide +kernel, 0, [0x00], by decide +kernel, by decide +kernel,
      by decide, by decide⟩, by decide, by decide, none, _, rfl⟩
  obtain ⟨emails, stored, free⟩ := Option.map_eq_some_iff.1 free
  obtain ⟨numbers, stored', size⟩ := Option.map_eq_some_iff.1 size
  obtain ⟨-, table, refs, id, file, held, named, email, found, added, -, -⟩ :=
    capacity_agrees regular [.command .load] .email 0 emails calm stored
  obtain ⟨-, table', refs', id', file', held', named', anr, found', -, -, positional⟩ :=
    capacity_agrees regular [.command .load] .anr 0 numbers calm stored'
  rw [held] at called
  have emailFile := (called refs (List.mem_of_getElem? named)).1
  have numberFile := (called refs' (held.symm.trans held' ▸ List.mem_of_getElem? named')).2
  cases email.symm.trans emailFile
  cases anr.symm.trans numberFile
  rw [found] at length
  rw [found'] at count
  have length : file.recordLen = 6 := Option.some.inj length
  have count : file'.records.length = 3 := Option.some.inj count
  rw [free, length] at added
  have ends := added [b, c, d] (by decide) addable
  obtain ⟨-, beyond, reported⟩ := positional (by decide +kernel) 3 3 [] ['1'] (by decide +kernel)
  rw [count] at beyond
  exact ⟨ends 0 b rfl, ends 1 c rfl, ends 2 d rfl, (reported rfl).1 (by omega),
    (beyond (by omega)).1⟩

end Session

end UsimPhonebook
