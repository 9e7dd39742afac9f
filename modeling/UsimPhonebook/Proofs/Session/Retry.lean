import UsimPhonebook.Proofs.Session.Effect
import UsimPhonebook.Proofs.Session.Invariant

/-! # Calling an interrupted update again

An update that adds a value or takes one away writes the record of the field and then the pointer
byte. When the second write fails, or the size query before it, the record is written and its slot
marked. The same update called again goes to the slot that the pointer byte names. So it completes
the work if the entry was linked to a slot; if it was not, the slot that was just filled is lost and
the call finds another one or none (`Session.retry_completes_iff`).
-/

namespace UsimPhonebook

theorem FieldStore.put_put (s : FieldStore) (index : Nat) (record : Bytes) :
    (s.put index record).put index record = s.put index record := by
  have there := slot?_put s index record
  obtain ⟨inside, same⟩ := List.getElem?_eq_some_iff.1 there
  have room : index < (s.put index record).size := inside
  rw [put_of_lt room, ← same, List.set_getElem_self inside]

theorem RecordFile.setRecord_setRecord (file : RecordFile) (number : Nat) (record : Bytes) :
    (file.setRecord number record).setRecord number record = file.setRecord number record := by
  unfold setRecord
  simp only [List.set_set]

namespace Desk

theorem putRecord_putRecord (kind : FieldKind) (slot : Nat) (record : Bytes) (b : BlockState) :
    putRecord kind slot record (putRecord kind slot record b) = putRecord kind slot record b := by
  unfold putRecord
  cases stored : b.store kind with
  | none =>
    dsimp only
    rw [stored]
  | some store =>
    dsimp only
    rw [BlockState.store_setStore_self]
    dsimp only
    rw [FieldStore.put_put]
    cases kind <;> rfl

/-- The slot of a field never lies in the index-pointer file. -/
theorem ne_iap {table : Reference.Table} {reference : FileId} {i : Nat} {refs : Reference.Block}
    (separate : table.Separate reference) (named : table.block? i = some refs) {kind : FieldKind}
    {id iap : FileId} (field : refs.file? (.ofKind kind) = some id)
    (pointers : refs.file? .iap = some iap) : id ≠ iap :=
  separate.ne_of_tag named named field pointers (FileTag.ofKind_ne_iap kind)

section

variable {refs : Reference.Block} {linkage : Linkage} {kind : FieldKind} {offset position : Nat}
  {old new : Text} {d d₁ d₂ : Desk} {id iap : FileId} {file pointers : RecordFile} {slot : Nat}
  {record pointer : Bytes}

/-- What an edit aims at depends on the block and the files alone. -/
theorem Aim.move (aim : Aim refs linkage kind offset old new d id file slot record) (d' : Desk)
    (block : d'.block = d.block) (files : d'.card.files = d.card.files) :
    Aim refs linkage kind offset old new d' id file slot record where
  named := aim.named
  found := by
    unfold Card.file?
    rw [files]
    exact aim.found
  resolved := by
    rw [block]
    exact aim.resolved
  low := aim.low
  high := aim.high
  encoded := aim.encoded

/-- With a fault pending for the index-pointer file alone, an edit writes the record of the field.
Without a pointer byte to write it succeeds. -/
theorem edit_of_idle (aim : Aim refs linkage kind offset old new d id file slot record)
    (idle : linkage = .type1 ∨ old.isEmpty = new.isEmpty)
    {op : Operation} (fault : d.card.faults = [(op, iap)]) (ne : id ≠ iap) :
    ((edit refs linkage kind offset old new).perform d).1 = .ok () := by
  obtain ⟨d₁, -, performed⟩ := edit_of_aim aim (by simp [fault, ne]) (by simp [fault, ne])
  rw [performed, relink_idle d₁ idle]
  rfl

theorem edit_interrupted
    (aim : Aim refs (.type2 position) kind offset old new d id file slot record)
    (differ : old.isEmpty ≠ new.isEmpty) {op : Operation} (of : op = .size ∨ op = .write)
    (fault : d.card.faults = [(op, iap)]) (ne : id ≠ iap) (named : refs.file? .iap = some iap)
    (found : d.card.file? iap = some pointers) (inside : offset < pointers.records.length)
    (place : position < pointers.recordLen) :
    ∃ e d', (edit refs (.type2 position) kind offset old new).perform d = (.error e, d') ∧
      d'.block = putRecord kind slot record d.block ∧
      d'.card.files = d.card.files.replace id (file.setRecord slot record) ∧
      d'.card.faults = [] := by
  obtain ⟨d₁, wrote, performed⟩ := edit_of_aim aim (by simp [fault, ne]) (by simp [fault, ne])
  have found₁ : d₁.card.file? iap = some pointers := by
    unfold Card.file?
    rw [wrote.files, SortedMap.find?_replace, if_neg ne.symm]
    exact found
  obtain ⟨e, d', failed, block, reads, used⟩ := rewritePointer_of_fault named found₁ inside
    (pointerTo slot new) place of (wrote.faults.trans fault)
  rw [performed, relink_eq differ, failed]
  exact ⟨e, d', rfl, block.trans wrote.block, reads.files.trans wrote.files, used⟩

/-- Called again with nothing in the way, an edit that goes to the slot that it has written already
does what was left to do. -/
theorem edit_again (aim : Aim refs (.type2 position) kind offset old new d id file slot record)
    (wrote : Wrote (putRecord kind slot record) d id file slot record d₁)
    (differ : old.isEmpty ≠ new.isEmpty)
    (relinked : Relinked refs offset position (pointerTo slot new) d₁ iap pointers pointer d₂)
    (d' : Desk) (block : d'.block = putRecord kind slot record d.block)
    (files : d'.card.files = d.card.files.replace id (file.setRecord slot record))
    (calm : d'.card.faults = [])
    (same : d'.block.resolveSlot kind (.type2 position) offset old = .ok slot) :
    ∃ d'', (edit refs (.type2 position) kind offset old new).perform d' = (.ok (), d'') ∧
      d''.block = applyValue kind offset record d₂.block ∧ d''.card.files = d₂.card.files := by
  have quiet (request : Operation × FileId) : request ∉ d'.card.faults := by
    rw [calm]
    exact List.not_mem_nil
  have found : d'.card.file? id = some (file.setRecord slot record) := by
    unfold Card.file?
    rw [files, SortedMap.find?_replace, if_pos rfl, show d.card.files.find? id = _ from aim.found]
    rfl
  have again : Aim refs (.type2 position) kind offset old new d' id (file.setRecord slot record)
      slot record := by
    refine ⟨aim.named, found, same, aim.low, ?_, ?_⟩
    · show slot ≤ (file.records.set (slot - 1) record).length
      rw [List.length_set]
      exact aim.high
    · rw [RecordFile.geometry_setRecord]
      exact aim.encoded
  obtain ⟨d₃, wrote', performed⟩ := edit_of_aim again (quiet _) (quiet _)
  have files₃ : d₃.card.files = d₁.card.files := by
    rw [wrote'.files, RecordFile.setRecord_setRecord, SortedMap.replace_eq_self found, files,
      wrote.files]
  have block₃ : d₃.block = d₁.block := by
    rw [wrote'.block, block, putRecord_putRecord, wrote.block]
  have found₃ : d₃.card.file? iap = some pointers := by
    unfold Card.file?
    rw [files₃]
    exact relinked.found
  obtain ⟨pointer', d₄, ok, relinked'⟩ := rewritePointer_of_calm relinked.named found₃
    relinked.inside (pointerTo slot new) relinked.place
    (by rw [wrote'.faults]; exact quiet _) (by rw [wrote'.faults]; exact quiet _)
  have pointer_eq : pointer' = pointer := by
    rw [relinked'.eq, relinked.eq, block₃]
  refine ⟨{ d₄ with block := applyValue kind offset record d₄.block }, ?_, ?_, ?_⟩
  · rw [performed, relink_eq differ, ok]
    rfl
  · show applyValue kind offset record d₄.block = _
    rw [relinked'.block, block₃, pointer_eq, relinked.block]
  · show d₄.card.files = _
    rw [relinked'.files, files₃, pointer_eq, relinked.files]

end

/-- When a value was put into the first free slot and the entry does not name it, the next edit of
the entry goes to another slot. -/
theorem other_slot {kind : FieldKind} {position offset slot next : Nat} {old : Text}
    {record held : Bytes} {b : BlockState} (kept : b.pointer? offset = some held)
    (unnamed : pointedSlot? held position = none)
    (first : b.resolveSlot kind (.type2 position) offset old = .ok slot)
    (written : Bytes.isBlank record = false)
    (second : (putRecord kind slot record b).resolveSlot kind (.type2 position) offset old =
      .ok next) :
    slot ≤ maxPointedSlot ∧ 1 ≤ next ∧ next ≤ maxPointedSlot ∧ next ≠ slot := by
  obtain ⟨held₁, kept₁, cases₁⟩ := BlockState.resolveSlot_cases first
  obtain ⟨held₂, kept₂, cases₂⟩ := BlockState.resolveSlot_cases second
  rw [pointer?_putRecord, kept] at kept₂
  rw [kept] at kept₁
  cases kept₁
  cases kept₂
  rcases cases₁ with named | ⟨-, -, store, index, stored, -, small, rfl⟩
  · rw [unnamed] at named
    cases named
  · rcases cases₂ with named | ⟨-, -, store', index', stored', free', small', rfl⟩
    · rw [unnamed] at named
      cases named
    · refine ⟨by omega, by omega, by omega, fun same => ?_⟩
      have same : index' = index := by omega
      subst same
      rw [store_putRecord, if_pos rfl, stored] at stored'
      cases stored'
      obtain ⟨slot, there, unused⟩ := FieldStore.free_of_firstFree? free'
      rw [Nat.add_sub_cancel, FieldStore.slot?_put] at there
      cases there
      simp [FieldStore.written, written] at unused

theorem pointerTo_injective {slot next : Nat} {new : Text} (value : new ≠ [])
    (high : slot ≤ maxPointedSlot) (high' : next ≤ maxPointedSlot)
    (h : pointerTo slot new = pointerTo next new) : slot = next := by
  have some : new.isEmpty = false := by simpa using value
  unfold pointerTo at h
  rw [some] at h
  unfold maxPointedSlot at high high'
  have bytes := congrArg UInt8.toNat h
  simp only [Bool.false_eq_true, if_false] at bytes
  rwa [Bytes.toNat_ofNat (by omega), Bytes.toNat_ofNat (by omega)] at bytes

theorem Relinked.byte_eq {refs : Reference.Block} {offset position : Nat} {byte : UInt8}
    {d d' : Desk} {id : FileId} {file : RecordFile} {record : Bytes}
    (relinked : Relinked refs offset position byte d id file record d') :
    ((d'.card.files.find? id).bind (·.records[offset]?)).bind (·[position]?) = some byte := by
  have place := relinked.place
  have written : (file.setRecord (offset + 1) record).records[offset]? = some record := by
    show (file.records.set (offset + 1 - 1) record)[offset]? = _
    rw [Nat.add_sub_cancel, List.getElem?_set_self relinked.inside]
  rw [relinked.files, SortedMap.find?_replace, if_pos rfl,
    show d.card.files.find? id = some file from relinked.found, Option.map_some, Option.bind_some,
    written, Option.bind_some, relinked.eq]
  unfold pointerRecord
  rw [List.getElem?_set_self (by rw [Bytes.length_fitTo]; exact place)]

end Desk

namespace Session

variable {s : Session}

/-- No fault is pending, the session goes by the table on the card, and no file of it serves
twice. -/
structure Grounded (s : Session) : Prop where
  calm : s.card.faults = []
  rooted : s.Rooted
  separate : ∀ table, Reference.Table.on? s.card.files s.options.referenceFile = some table →
    table.Separate s.options.referenceFile

theorem grounded_start {card : Card} (calm : card.faults = []) {options : Options}
    (separate : ∀ table, Reference.Table.on? card.files options.referenceFile = some table →
      table.Separate options.referenceFile) : (start card options).Grounded where
  calm := calm
  rooted := ⟨nofun, nofun, rfl⟩
  separate := separate

theorem Grounded.obey (grounded : s.Grounded) (command : Command) :
    (s.obey command).2.Grounded := by
  rcases s.continues_or_update command with continues | ⟨position, old, new, kind, rfl⟩
  · refine ⟨continues.reads.faultless grounded.calm, continues.rooted grounded.rooted, ?_⟩
    rw [continues.options, continues.reads.files]
    exact grounded.separate
  · rcases obey_update_cases s position old new kind with
      ⟨e, refused, -⟩ | ⟨i, offset, table, refs, b, outcome, d', v, ended, performed⟩
    · rw [refused]
      exact grounded
    · rw [performed]
      have rooted := (grounded.rooted.table table v.held).1
      have confined := ended.confined (grounded.separate table rooted) v.named
      refine ⟨confined.follows.faultless grounded.calm, grounded.rooted.withDesk confined.rooted,
        fun other h => ?_⟩
      exact grounded.separate other (confined.rooted ▸ h)

theorem Grounded.run (grounded : s.Grounded) (commands : List Command) :
    (s.run commands).Grounded :=
  run_invariant (fun _ command grounded => grounded.obey command) grounded commands

/-! ## The first call -/

theorem Visit.onCard {position i offset : Nat} {table : Reference.Table} {refs : Reference.Block}
    {b : BlockState} (v : s.Visit position i offset table refs b) (f : Card → Card) :
    (s.onCard f).Visit position i offset table refs b :=
  ⟨v.located, v.held, v.named, v.here, v.inside⟩

section

variable {position i offset place : Nat} {old new : Text} {kind : FieldKind} {op : Operation}
  {table : Reference.Table} {refs : Reference.Block} {b : BlockState} {id iap : FileId}
  {file pointers : RecordFile} {slot : Nat} {record pointer : Bytes} {d₁ d₂ : Desk}

variable (v : s.Visit position i offset table refs b) (calm : s.card.faults = []) (ne : id ≠ iap)

include v calm ne

/-- A fault of the index-pointer file does not strike an update that leaves this file alone. -/
theorem obey_of_idle (idle : table.linkage kind = .type1 ∨ old.isEmpty = new.isEmpty)
    (aim : Desk.Aim refs (table.linkage kind) kind offset old new ⟨s.channel, b⟩ id file slot
      record) :
    ((s.onCard (·.failNext op iap)).obey (.update position old new kind)).1 = none := by
  have fault : (s.onCard (·.failNext op iap)).card.faults = [(op, iap)] := by
    show s.card.faults ++ [(op, iap)] = _
    rw [calm]
    rfl
  have ok := Desk.edit_of_idle (d := ⟨(s.onCard (·.failNext op iap)).channel, b⟩)
    (aim.move _ rfl rfl) idle fault ne
  rw [(v.onCard _).obey_eq]
  dsimp only
  rw [ok]
  rfl

/-- Otherwise it writes the record of the field and stops there. -/
theorem obey_interrupted (of : op = .size ∨ op = .write)
    (pointed : table.linkage kind = .type2 place) (differ : old.isEmpty ≠ new.isEmpty)
    (aim : Desk.Aim refs (.type2 place) kind offset old new ⟨s.channel, b⟩ id file slot record)
    (wrote : Desk.Wrote (Desk.putRecord kind slot record) ⟨s.channel, b⟩ id file slot record d₁)
    (relinked : Desk.Relinked refs offset place (Desk.pointerTo slot new) d₁ iap pointers pointer
      d₂) :
    ∃ d', ((s.onCard (·.failNext op iap)).obey (.update position old new kind)).2 =
        (s.onCard (·.failNext op iap)).withDesk i d' ∧
      d'.block = Desk.putRecord kind slot record b ∧
      d'.card.files = s.card.files.replace id (file.setRecord slot record) ∧
      d'.card.faults = [] := by
  have fault : (s.onCard (·.failNext op iap)).card.faults = [(op, iap)] := by
    show s.card.faults ++ [(op, iap)] = _
    rw [calm]
    rfl
  have found : (s.onCard (·.failNext op iap)).card.file? iap = some pointers := by
    have := relinked.found
    unfold Card.file? at this ⊢
    rw [wrote.files, SortedMap.find?_replace, if_neg ne.symm] at this
    exact this
  obtain ⟨e, d', failed, block, files, used⟩ := Desk.edit_interrupted
    (d := ⟨(s.onCard (·.failNext op iap)).channel, b⟩) (aim.move _ rfl rfl) differ of fault ne
    relinked.named found relinked.inside relinked.place
  refine ⟨d', ?_, block, files, used⟩
  rw [(v.onCard _).obey_eq, pointed]
  dsimp only
  rw [failed]

end

/-! ## The second call -/

section

variable {position i offset place : Nat} {old new : Text} {kind : FieldKind}
  {table : Reference.Table} {refs : Reference.Block} {b b' : BlockState} {id iap : FileId}
  {file pointers : RecordFile} {slot : Nat} {record pointer : Bytes} {d d₁ d₂ : Desk} {s' : Session}

variable (pointed : table.linkage kind = .type2 place) (differ : old.isEmpty ≠ new.isEmpty)
  (aim : Desk.Aim refs (.type2 place) kind offset old new d id file slot record)
  (wrote : Desk.Wrote (Desk.putRecord kind slot record) d id file slot record d₁)
  (relinked : Desk.Relinked refs offset place (Desk.pointerTo slot new) d₁ iap pointers pointer d₂)
  (v : s'.Visit position i offset table refs b')
  (block : b' = Desk.putRecord kind slot record d.block)
  (files : s'.card.files = d.card.files.replace id (file.setRecord slot record))
  {held : Bytes} (kept : d.block.pointer? offset = some held)

include pointed differ aim wrote relinked v block files kept

/-- An interrupted update of an entry that names a slot is completed by the second call. -/
theorem again_of_linked (calm : s'.card.faults = [])
    (named : ∃ slot, pointedSlot? held place = some slot) :
    ∃ d', s'.obey (.update position old new kind) = (none, s'.withDesk i d') ∧
      d'.block = Desk.applyValue kind offset record d₂.block ∧ d'.card.files = d₂.card.files := by
  have resolved : b'.resolveSlot kind (.type2 place) offset old = .ok slot := by
    obtain ⟨slot', named⟩ := named
    obtain ⟨held', kept', cases⟩ := BlockState.resolveSlot_cases aim.resolved
    rw [kept] at kept'
    cases kept'
    rcases cases with here | ⟨unnamed, -⟩
    · unfold BlockState.resolveSlot
      rw [block, Desk.pointer?_putRecord, kept]
      dsimp only
      rw [here]
    · rw [named] at unnamed
      cases unnamed
  obtain ⟨d', performed, block', files'⟩ := Desk.edit_again aim wrote differ relinked
    ⟨s'.channel, b'⟩ block files calm resolved
  refine ⟨d', ?_, block', files'⟩
  rw [v.obey_eq, pointed]
  dsimp only
  rw [performed]
  rfl

omit wrote files in
/-- One of an entry that names none is not: the second call goes to another slot. -/
theorem again_of_unlinked (unnamed : pointedSlot? held place = none)
    (ok : (s'.obey (.update position old new kind)).1 = none) :
    (s'.obey (.update position old new kind)).2.card.files ≠ d₂.card.files := by
  obtain ⟨d', ended, performed⟩ := v.ended ok
  rw [performed, pointed] at *
  intro agree
  have value : new ≠ [] := by
    obtain ⟨held', kept', cases⟩ := BlockState.resolveSlot_cases aim.resolved
    rw [kept] at kept'
    cases kept'
    rcases cases with named | ⟨-, empty, -⟩
    · rw [unnamed] at named
      cases named
    · rintro rfl
      rw [empty] at differ
      exact differ rfl
  have written : Bytes.isBlank record = false := by
    rw [Bool.eq_false_iff, ne_eq, (Desk.encodeField_spec aim.encoded).2.2]
    exact value
  cases ended with
  | settled _ _ _ _ _ _ _ idle =>
    rcases idle with idle | idle
    · cases idle
    · exact differ idle
  | relinked id' file' slot' record' d₁' place' iap' pointers' pointer' d₂' aim' wrote' pointed' _
      relinked' =>
    cases pointed'
    have same := relinked'.named
    rw [relinked.named] at same
    cases same
    have second := aim'.resolved
    rw [block] at second
    obtain ⟨high, low', high', other⟩ := Desk.other_slot kept unnamed aim.resolved written second
    -- the two runs differ in the pointer byte that they leave on the card
    have byte := relinked'.byte_eq
    rw [show d₂'.card.files = d₂.card.files from agree, relinked.byte_eq] at byte
    exact other (Desk.pointerTo_injective value high high' (Option.some.inj byte)).symm

end

/-! ## Both calls -/

/-- The index-pointer file of a block. -/
def pointerFile? (s : Session) (block : Nat) : Option FileId :=
  s.table.bind fun table => (table.block? block).bind (·.file? .iap)

/-- An update that would succeed, and that the index-pointer file fails once by its size query or
its write, is completed by calling it again if and only if the entry named a slot before. -/
theorem retry_completes_iff {card : Card} {options : Options} (calm : card.faults = [])
    (separate : ∀ table, Reference.Table.on? card.files options.referenceFile = some table →
      table.Separate options.referenceFile) (commands : List Command) (position i offset : Nat)
    (old new : Text) (kind : FieldKind) (op : Operation) (iap : FileId) :
    let s := (start card options).run commands
    let whole := s.obey (.update position old new kind)
    let broken := (s.onCard (·.failNext op iap)).obey (.update position old new kind)
    let again := broken.2.obey (.update position old new kind)
    op = .size ∨ op = .write → s.locate? position = some (i, offset) →
    s.pointerFile? i = some iap → whole.1 = none → broken.1 ≠ none →
    ((again.1 = none ∧ again.2.card.files = whole.2.card.files ∧
        again.2.entries = whole.2.entries ∧
        ∀ kind block, again.2.freeInBlock kind block = whole.2.freeInBlock kind block) ↔
      ∃ slot, s.slotOf? kind i offset = some slot) := by
  intro s whole broken again of located pointerFile ok failed
  have grounded : s.Grounded := (grounded_start calm separate).run commands
  obtain ⟨i', offset', table, refs, b, d', v, ended, performed⟩ := ended_of_obey ok
  have same := v.located
  rw [located] at same
  cases same
  have named : refs.file? .iap = some iap := by
    unfold pointerFile? at pointerFile
    rw [v.held, Option.bind_some, v.named, Option.bind_some] at pointerFile
    exact pointerFile
  have separate := grounded.separate table (grounded.rooted.table table v.held).1
  cases ended with
  | settled id file slot record d₁ aim wrote idle =>
    have ne := Desk.ne_iap separate v.named aim.named named
    exact absurd (obey_of_idle v grounded.calm ne idle aim) failed
  | relinked id file slot record d₁ place iap' pointers pointer d₂ aim wrote pointed differ
      relinked =>
    have same := relinked.named
    rw [named] at same
    cases same
    have ne := Desk.ne_iap separate v.named aim.named named
    rw [pointed] at aim
    obtain ⟨d', left, block, files, used⟩ :=
      obey_interrupted v grounded.calm ne of pointed differ aim wrote relinked
    have left : broken.2 = (s.onCard (·.failNext op iap)).withDesk i d' := left
    have count : d'.block.entryCount = b.entryCount := by
      unfold BlockState.entryCount
      rw [block, Desk.entries_putRecord]
    have v₂ : broken.2.Visit position i offset table refs d'.block :=
      left ▸ (v.onCard _).withDesk count
    have files₂ : broken.2.card.files = s.card.files.replace id (file.setRecord slot record) := by
      rw [left]
      exact files
    have calm₂ : broken.2.card.faults = [] := by
      rw [left]
      exact used
    obtain ⟨held, kept, -⟩ := BlockState.resolveSlot_cases aim.resolved
    have slotOf : s.slotOf? kind i offset = pointedSlot? held place := by
      rw [v.slotOf?_eq pointed, show b.pointer? offset = some held from kept]
      rfl
    have whole_eq : whole.2 = s.withDesk i
        { d₂ with block := Desk.applyValue kind offset record d₂.block } := performed
    rw [slotOf]
    constructor
    · rintro ⟨ok₂, agree, -⟩
      rw [whole_eq] at agree
      cases unnamed : pointedSlot? held place with
      | some slot => exact ⟨slot, rfl⟩
      | none =>
        exact absurd agree
          (again_of_unlinked pointed differ aim relinked v₂ block kept unnamed ok₂)
    · intro linked
      obtain ⟨d'', performed₂, block₂, files''⟩ := again_of_linked pointed differ aim wrote relinked
        v₂ block files₂ kept calm₂ linked
      have again_eq : again = (none, broken.2.withDesk i d'') := performed₂
      have blocks : again.2.blocks = whole.2.blocks := by
        rw [again_eq, whole_eq, left]
        show (s.blocks.set i d'.block).set i d''.block = s.blocks.set i _
        rw [List.set_set, block₂]
      refine ⟨congrArg Prod.fst again_eq, ?_, ?_, fun kind block => ?_⟩
      · rw [again_eq, whole_eq]
        exact files''
      · unfold entries
        rw [blocks]
      · unfold freeInBlock
        rw [blocks]

/-- A block of one entry that names no slot, and two free slots. -/
def loneCard : Card where
  files := ⟨[
    (.ofNat 0x4F25, ⟨1, [[0x00]]⟩),
    (.ofNat 0x4F30, ⟨16, [[0xA8, 0x08, 0xC0, 0x02, 0x4F, 0x3A, 0xC1, 0x02, 0x4F, 0x25,
      0xA9, 0x04, 0xCA, 0x02, 0x4F, 0x50]]⟩),
    (.ofNat 0x4F3A, ⟨14, [Bytes.blank 14]⟩),
    (.ofNat 0x4F50, ⟨6, [Bytes.blank 6, Bytes.blank 6]⟩)]⟩

/-- The value of an entry is taken away at the second call, but is not added at the second call. -/
theorem retry_loneCard :
    (let s := (start loneCard {}).run [.load, .update 0 [] ['a'] .email]
     let whole := s.obey (.update 0 ['a'] [] .email)
     let broken := (s.onCard (·.failNext .write (.ofNat 0x4F25))).obey (.update 0 ['a'] [] .email)
     let again := broken.2.obey (.update 0 ['a'] [] .email)
     again.1 = none ∧ again.2.card.files = whole.2.card.files ∧
       again.2.entries = whole.2.entries ∧
       ∀ kind block, again.2.freeInBlock kind block = whole.2.freeInBlock kind block) ∧
    (let s := (start loneCard {}).run [.load]
     let whole := s.obey (.update 0 [] ['a'] .email)
     let broken := (s.onCard (·.failNext .write (.ofNat 0x4F25))).obey (.update 0 [] ['a'] .email)
     let again := broken.2.obey (.update 0 [] ['a'] .email)
     ¬ (again.1 = none ∧ again.2.card.files = whole.2.card.files ∧
       again.2.entries = whole.2.entries ∧
       ∀ kind block, again.2.freeInBlock kind block = whole.2.freeInBlock kind block)) := by
  have separate : ∀ table, Reference.Table.on? loneCard.files ({} : Options).referenceFile =
      some table → table.Separate ({} : Options).referenceFile := by
    have formed : WellFormed ({} : Options).referenceFile loneCard.files := by decide +kernel
    exact formed.separate
  constructor
  · exact (retry_completes_iff rfl separate [.load, .update 0 [] ['a'] .email] 0 0 0 ['a'] [] .email
      .write (.ofNat 0x4F25) (.inr rfl) (by decide +kernel) (by decide +kernel) (by decide +kernel)
      (by decide +kernel)).2 ⟨1, by decide +kernel⟩
  · intro s whole broken again completed
    obtain ⟨slot, names⟩ := (retry_completes_iff rfl separate [.load] 0 0 0 [] ['a'] .email
      .write (.ofNat 0x4F25) (.inr rfl) (by decide +kernel) (by decide +kernel) (by decide +kernel)
      (by decide +kernel)).1 completed
    have unnamed : s.slotOf? .email 0 0 = none := by decide +kernel
    rw [unnamed] at names
    cases names

/-- Of two free slots both are taken when the update that adds a value is called again. -/
theorem slot_lost_loneCard :
    let s := (start loneCard {}).run [.load]
    let whole := s.obey (.update 0 [] ['a'] .email)
    let broken := (s.onCard (·.failNext .write (.ofNat 0x4F25))).obey (.update 0 [] ['a'] .email)
    let again := broken.2.obey (.update 0 [] ['a'] .email)
    WellFormed s.options.referenceFile loneCard.files ∧
      whole.1 = none ∧ broken.1 ≠ none ∧ again.1 = none ∧
      whole.2.freeInBlock .email 0 = 1 ∧ again.2.freeInBlock .email 0 = 0 ∧
      whole.2.card.files ≠ again.2.card.files := by
  decide +kernel

end Session

end UsimPhonebook
