import UsimPhonebook.Proofs.Session.Footprint
import UsimPhonebook.Proofs.Session.Stages

/-! # What an update that fails leaves behind

On a card without faults an update that fails has written nothing, unless the pointer byte lies
beyond the index-pointer record. That is found out only after the record of the field was written,
and this record stays on the card and in the session, in the slot that the update had aimed at
(`Session.rejected_update`).

The reason is that an index-pointer record is held only if the card has it
(`BlockState.Anchored`), so that nothing else can go wrong with it once the first record is written.
Of a kind that is linked by pointer bytes a slot is held for each record of the file
(`BlockState.Stocked`), so that the record has its slot. Neither the shape of the files nor how they
are named matters: a file may serve twice.
-/

namespace UsimPhonebook

/-- Every index-pointer record that is held has its record on the card. -/
structure BlockState.Anchored (b : BlockState) (files : BlockFiles) : Prop where
  numbers : b.numbers = [] ∨ ∃ n, b.numbers = Desk.recordNumbers n
  pointers : ∀ records, b.pointers = some records →
    ∃ iap, files .iap = some iap ∧ records.length ≤ iap.records.length

theorem BlockState.Anchored.of_sameShape {b b' : BlockState} {refs : Reference.Block}
    {files files' : CardFiles} (h : b.Anchored (refs.on files)) (shape : SameShape files files')
    (numbers : b'.numbers = b.numbers)
    (pointers : b'.pointers.map List.length = b.pointers.map List.length) :
    b'.Anchored (refs.on files') where
  numbers := numbers ▸ h.numbers
  pointers records held := by
    rw [held] at pointers
    obtain ⟨before, held', same⟩ := Option.map_eq_some_iff.1 pointers.symm
    obtain ⟨iap, found, enough⟩ := h.pointers before held'
    obtain ⟨id, named, found⟩ := Option.bind_eq_some_iff.1 found
    obtain ⟨iap', found', geometry⟩ := shape.exists_file found
    have count : iap'.records.length = iap.records.length := congrArg Geometry.count geometry
    refine ⟨iap', ?_, by omega⟩
    unfold Reference.Block.on
    rw [named]
    exact found'

/-- Of a kind that is linked by pointer bytes a slot is held for each record of its file. -/
def BlockState.Stocked (b : BlockState) (table : Reference.Table) (files : BlockFiles) : Prop :=
  ∀ kind place store, table.linkage kind = .type2 place → b.store kind = some store →
    ∃ file, files (.ofKind kind) = some file ∧ store.size = file.records.length

/-- Only the sizes count, of the files and of what is held. -/
theorem BlockState.Stocked.of_sameShape {b b' : BlockState} {table : Reference.Table}
    {refs : Reference.Block} {files files' : CardFiles} (h : b.Stocked table (refs.on files))
    (shape : SameShape files files') (sizes : ∀ kind place, table.linkage kind = .type2 place →
      (b'.store kind).map (·.size) = (b.store kind).map (·.size)) :
    b'.Stocked table (refs.on files') := by
  intro kind place store pointed kept
  have same := sizes kind place pointed
  rw [kept] at same
  obtain ⟨before, kept', size⟩ := Option.map_eq_some_iff.1 same.symm
  obtain ⟨file, found, full⟩ := h kind place before pointed kept'
  have geometry := shape.on refs (.ofKind kind)
  rw [found] at geometry
  obtain ⟨file', found', eq⟩ := Option.map_eq_some_iff.1 geometry
  have count : file'.records.length = file.records.length := congrArg Geometry.count eq
  exact ⟨file', found', size.symm.trans (full.trans count.symm)⟩

/-- The store has the slot of a record that the file has. -/
theorem BlockState.Stocked.lt_size {b : BlockState} {table : Reference.Table} {files : BlockFiles}
    (h : b.Stocked table files) {kind : FieldKind} {place slot : Nat} {file : RecordFile}
    (pointed : table.linkage kind = .type2 place) (found : files (.ofKind kind) = some file)
    (low : 1 ≤ slot) (high : slot ≤ file.records.length) {store : FieldStore}
    (kept : b.store kind = some store) : slot - 1 < store.size := by
  obtain ⟨file', found', full⟩ := h kind place store pointed kept
  rw [found] at found'
  cases found'
  omega

namespace Desk

/-! ## Loading -/

theorem anchored_loadPointers {refs : Reference.Block} (share : Bool) (d : Desk) :
    d.card.Reads ((loadPointers refs share).perform d).2.card ∧
      (d.block.Anchored (refs.on d.card.files) →
        ((loadPointers refs share).perform d).2.block.Anchored (refs.on d.card.files)) := by
  unfold loadPointers
  rw [Action.perform_bind, perform_current]
  dsimp only
  split
  · exact ⟨.refl _, id⟩
  · cases named : refs.file? .iap with
    | none => exact ⟨.refl _, id⟩
    | some id =>
      dsimp only
      rw [Action.perform_bind, perform_readSubset]
      rcases read_cases d (.readSubset id d.block.numbers) nofun with
        ⟨e, d', failed, block, reads, -⟩ | ⟨file, records, d', ok, block, reads, found, granted⟩
      · rw [failed]
        refine ⟨reads, fun h => ?_⟩
        show d'.block.Anchored _
        rw [block]
        exact h
      · rw [ok]
        cases granted
        dsimp only
        rw [perform_keepPointers]
        refine ⟨reads, fun h => ⟨?_, fun records held => ?_⟩⟩
        · show d'.block.numbers = [] ∨ ∃ n, d'.block.numbers = _
          rw [block]
          exact h.numbers
        · obtain ⟨-, rfl⟩ := BlockState.pointers_holdPointers.1 held
          refine ⟨file, on_eq_some named found, ?_⟩
          rcases h.numbers with none | ⟨n, some⟩
          · rw [none]
            exact Nat.zero_le _
          · rw [some, RecordFile.select_recordNumbers, List.length_take]
            omega

section

variable (refs : Reference.Block) {table : Reference.Table} (share : Bool)

/-- Of a kind that is linked by pointer bytes what was held stays, or all of its file is read. -/
theorem store_complete {kind : FieldKind} {place : Nat}
    (pointed : table.linkage kind = .type2 place) (d : Desk) :
    (complete refs table share kind d).block.store kind = d.block.store kind ∨
    ∃ file, refs.on d.card.files (.ofKind kind) = some file ∧
      (complete refs table share kind d).block.store kind = some (.ofRecords file.records) := by
  unfold complete completeField
  rw [Action.perform_bind, perform_current]
  dsimp only
  split
  · exact .inl rfl
  rw [Action.perform_ignoringFailure, pointed]
  unfold loadField
  cases named : refs.file? (.ofKind kind) with
  | none => exact .inl rfl
  | some id =>
    unfold loadRecords
    dsimp only
    have within : (loadPointers refs share).Within fun d d' =>
        d.card.Reads d'.card ∧ d'.block.store kind = d.block.store kind :=
      within_loadPointers (fun _ => ⟨.refl _, rfl⟩)
        (fun _ _ _ h h' => ⟨h.1.trans h'.1, h'.2.trans h.2⟩)
        (fun _ _ consults => ⟨ask_reads (.inl consults.ne_write), rfl⟩)
        fun records d => ⟨.refl _, d.block.store_holdPointers records kind⟩
    obtain ⟨reads, same⟩ := within d
    rw [Action.perform_bind]
    rcases read : (loadPointers refs share).perform d with ⟨e | linked, d₁⟩
    · rw [read] at same
      exact .inl same
    · rw [read] at reads same
      cases linked with
      | false => exact .inl same
      | true =>
        simp only [if_true, Action.perform_bind, perform_readAll]
        rcases read_cases d₁ (.readAll id) nofun with
          ⟨e, d', failed, block, -, -⟩ | ⟨file, records, d', ok, block, -, found, granted⟩
        · rw [failed]
          refine .inl ?_
          show d'.block.store kind = _
          rw [block, same]
        · rw [ok]
          cases granted
          have found : d₁.card.file? id = some file := found
          rw [reads.file?] at found
          exact .inr ⟨file, on_eq_some named found, BlockState.store_setStore_self ..⟩

theorem stocked_complete (kind : FieldKind) {d : Desk}
    (stocked : d.block.Stocked table (refs.on d.card.files)) :
    (complete refs table share kind d).block.Stocked table (refs.on d.card.files) := by
  intro other place store pointed kept
  by_cases same : other = kind
  · subst same
    rcases store_complete refs share pointed d with eq | ⟨file, found, eq⟩
    · exact stocked other place store pointed (eq.symm.trans kept)
    · rw [eq] at kept
      cases kept
      refine ⟨file, found, ?_⟩
      rw [FieldStore.size_eq, FieldStore.records_ofRecords]
  · rw [store_complete_of_ne same] at kept
    exact stocked other place store pointed kept

theorem reads_complete (table : Reference.Table) (kind : FieldKind) (d : Desk) :
    d.card.Reads (complete refs table share kind d).card :=
  within_completeField (R := fun d d' : Desk => d.card.Reads d'.card) (fun _ => .refl _)
    (fun _ _ _ => .trans) (fun _ _ consults => ask_reads (.inl consults.ne_write))
    (fun _ _ => .refl _) (fun _ _ => .refl _) d

end

end Desk

/-- An edit puts its record into a slot that is there. -/
theorem Desk.Ended.stocked {table : Reference.Table} {refs : Reference.Block} {kind : FieldKind}
    {offset : Nat} {old new : Text} {d d' : Desk} {outcome : Except Error Unit}
    (ended : Ended refs (table.linkage kind) kind offset old new d outcome d')
    (stocked : d.block.Stocked table (refs.on d.card.files)) :
    d'.block.Stocked table (refs.on d'.card.files) := by
  have put {id : FileId} {file : RecordFile} {slot : Nat} {record : Bytes} {b : BlockState}
      (aim : Aim refs (table.linkage kind) kind offset old new d id file slot record)
      (eq : ∀ other, b.store other = (putRecord kind slot record d.block).store other)
      (other : FieldKind) (place : Nat) (pointed : table.linkage other = .type2 place) :
      (b.store other).map (·.size) = (d.block.store other).map (·.size) := by
    rw [eq, store_putRecord]
    by_cases same : other = kind
    · subst same
      rw [if_pos rfl]
      cases kept : d.block.store other with
      | none => rfl
      | some store =>
        exact congrArg some (FieldStore.size_put (stocked.lt_size pointed
          (on_eq_some aim.named aim.found) aim.low aim.high kept) record)
    · rw [if_neg same]
  refine stocked.of_sameShape ended.sameShape.1 ?_
  cases ended with
  | refused e d' block _ _ =>
    intro other _ _
    rw [block]
  | halted id file slot record d₁ place e d' aim wrote _ _ _ block _ _ =>
    exact put aim fun other => by rw [block, wrote.block]
  | settled id file slot record d₁ aim wrote _ =>
    exact put aim fun other => by rw [store_applyValue, wrote.block]
  | relinked id file slot record d₁ place iap pointers pointer d₂ aim wrote _ _ relinked =>
    exact put aim fun other => by
      rw [store_applyValue, relinked.block, store_setPointer, wrote.block]

theorem BlockState.sizes_join (b : BlockState) (table : Reference.Table) (kind : FieldKind) :
    ((b.join table).store kind).map (·.size) = (b.store kind).map (·.size) := by
  have sizes (b : BlockState) (other : FieldKind) (linkage : Linkage) :
      ((b.joinKind other linkage).store kind).map (·.size) = (b.store kind).map (·.size) := by
    have records := congrArg (Option.map List.length) (store_joinKind b other linkage kind).1
    simpa only [Option.map_map, Function.comp_def, ← FieldStore.size_eq] using records
  rw [join_eq, sizes, sizes]

namespace Session

/-- The records that are held of a block are anchored. -/
def Fastened : BlockProperty := fun _ _ files b => b.Anchored files

theorem loads_fastened : Loads (fun _ => True) Fastened where
  keeps _ _ _ _ := trivial
  empty table refs files := ⟨.inl rfl, nofun⟩
  invalidate table refs files b h := ⟨h.numbers, h.pointers⟩
  load table refs share d _ h := by
    refine (Desk.within_load (R := fun d d' =>
      d.card.Reads d'.card ∧ (d.block.Anchored (refs.on d.card.files) →
        d'.block.Anchored (refs.on d.card.files)))
      (fun _ => ⟨.refl _, id⟩) (fun a b c h h' => ⟨h.1.trans h'.1, fun anchored => ?_⟩)
      (fun d request consults => ⟨Desk.ask_reads (.inl consults.ne_write), id⟩)
      Desk.anchored_loadPointers
      (fun f same d => ⟨.refl _, fun anchored => ?_⟩) share d).2 h
    · rw [← h.1.files] at anchored ⊢
      exact h'.2 (h.1.files ▸ h.2 (h.1.files ▸ anchored))
    · obtain ⟨pointers, numbers⟩ := same d.block
      refine ⟨?_, fun records held => anchored.pointers records (pointers ▸ held)⟩
      rcases numbers with same | fresh
      · exact same ▸ anchored.numbers
      · exact .inr fresh

/-- The slots that are held of a block are as many as there are records. -/
def Provided : BlockProperty := fun table _ files b => b.Stocked table files

theorem loads_provided : Loads (fun _ => True) Provided where
  keeps _ _ _ _ := trivial
  empty table refs files kind place store pointed kept := by cases kind <;> cases kept
  invalidate table refs files b h kind place store pointed kept :=
    h kind place store pointed (b.store_invalidate kind ▸ kept)
  load table refs share d _ h := by
    rw [Desk.perform_load]
    rcases Desk.loadEntries_cases refs d with
      ⟨e, d₁, failed, block, -⟩ | ⟨es, d₁, ok, block, reads, -⟩
    · rw [failed]
      show d₁.block.Stocked table _
      rw [block]
      exact h
    · rw [ok]
      dsimp only
      have entered : d₁.block.Stocked table (refs.on d₁.card.files) := by
        refine h.of_sameShape (Desk.sameShape_of_reads reads) fun kind _ _ => ?_
        rw [block]
        cases kind <;> rfl
      have email := Desk.stocked_complete refs share .email entered
      have reads₁ := Desk.reads_complete refs share table .email d₁
      rw [← reads₁.files] at email
      have anr := Desk.stocked_complete refs share .anr email
      rw [reads₁.files, reads.files] at anr
      exact anr.of_sameShape (.refl _) fun kind _ _ => BlockState.sizes_join ..

/-- No fault is pending, and what is held is anchored and as much as there is. -/
structure Steady (s : Session) : Prop where
  calm : s.card.faults = []
  fastened : s.Upholds Fastened
  provided : s.Upholds Provided

variable {s : Session}

theorem steady_start {card : Card} (calm : card.faults = []) (options : Options) :
    (start card options).Steady where
  calm := calm
  fastened := by
    intro table i refs b held
    cases held
  provided := by
    intro table i refs b held
    cases held

theorem Steady.obey (steady : s.Steady) (command : Command) : (s.obey command).2.Steady := by
  rcases s.continues_or_update command with continues | ⟨position, old, new, kind, rfl⟩
  · exact ⟨continues.reads.faultless steady.calm,
      continues.upholds _ _ loads_fastened trivial steady.fastened,
      continues.upholds _ _ loads_provided trivial steady.provided⟩
  · rcases obey_update_cases s position old new kind with
      ⟨e, refused, -⟩ | ⟨i, offset, table, refs, b, outcome, d', v, ended, performed⟩
    · rw [refused]
      exact steady
    · rw [performed]
      obtain ⟨shape, follows, numbers, pointers⟩ := ended.sameShape
      refine ⟨follows.faultless steady.calm,
        .withDesk v.held v.named (fun j refs' b' named here _ => ?_) ?_,
        .withDesk v.held v.named (fun j refs' b' named here _ => ?_) ?_⟩
      · exact (steady.fastened table j refs' b' v.held named here).of_sameShape shape rfl rfl
      · exact (v.upheld steady.fastened).of_sameShape shape numbers pointers
      · have before := steady.provided table j refs' b' v.held named here
        exact before.of_sameShape shape fun _ _ _ => rfl
      · exact ended.stocked (v.upheld steady.provided)

theorem Steady.run (steady : s.Steady) (commands : List Command) : (s.run commands).Steady :=
  run_invariant (fun _ command steady => steady.obey command) steady commands

/-- Once the record of the field is written, nothing can go wrong with the pointer byte but that
there is no such byte. -/
theorem beyond_of_halted {refs : Reference.Block} {kind : FieldKind} {offset position slot : Nat}
    {old new : Text} {d d₁ d' : Desk} {id : FileId} {file : RecordFile} {record : Bytes} {e : Error}
    (anchored : d.block.Anchored (refs.on d.card.files)) (calm : d.card.faults = [])
    (aim : Desk.Aim refs (.type2 position) kind offset old new d id file slot record)
    (wrote : Desk.Wrote (Desk.putRecord kind slot record) d id file slot record d₁)
    (failed : (Desk.rewritePointer refs offset position (Desk.pointerTo slot new)).perform d₁ =
      (.error e, d')) :
    e = .pointerBeyondRecord ∧
      ∃ iap, refs.on d.card.files .iap = some iap ∧ iap.recordLen ≤ position := by
  obtain ⟨held, kept, -⟩ := BlockState.resolveSlot_cases aim.resolved
  obtain ⟨records, kept, there⟩ := Option.bind_eq_some_iff.1 kept
  have short := (List.getElem?_eq_some_iff.1 there).1
  obtain ⟨iap, found, enough⟩ := anchored.pointers records kept
  obtain ⟨iapId, named, found'⟩ := Option.bind_eq_some_iff.1 found
  -- the file may be the one that was written to, but it has its size still
  obtain ⟨iap', found₁, geometry⟩ := wrote.sameShape.exists_file found'
  have count : iap'.records.length = iap.records.length := congrArg Geometry.count geometry
  have length : iap'.recordLen = iap.recordLen := congrArg Geometry.recordLen geometry
  have found₁ : d₁.card.file? iapId = some iap' := found₁
  have inside : offset < iap'.records.length := by omega
  have calm₁ : d₁.card.faults = [] := wrote.faults.trans calm
  by_cases place : position < iap'.recordLen
  · obtain ⟨record', d'', ok, -⟩ := Desk.rewritePointer_of_calm named found₁ inside
      (Desk.pointerTo slot new) place (by rw [calm₁]; exact List.not_mem_nil)
      (by rw [calm₁]; exact List.not_mem_nil)
    rw [ok] at failed
    cases failed
  · have beyond := Desk.rewritePointer_beyond named found₁ inside position
      (Desk.pointerTo slot new) (by omega) (by rw [calm₁]; exact List.not_mem_nil)
    rw [failed] at beyond
    cases beyond
    exact ⟨rfl, iap, found, by omega⟩

/-- An update that fails on a card without faults, at any point of any run, leaves the files of the
card and all that the session holds as they were. The one exception is a pointer byte that lies
beyond the index-pointer record. Then a value was to be added or taken away, and its record is
written to the slot that the update aims at, on the card and in the session, where it counts as in
use unless it is blank. Nothing else is changed. -/
theorem rejected_update {card : Card} (calm : card.faults = []) (options : Options)
    (commands : List Command) (position : Nat) (old new : Text) (kind : FieldKind) (e : Error) :
    let s := (start card options).run commands
    let s' := (s.obey (.update position old new kind)).2
    (s.obey (.update position old new kind)).1 = some e →
    (e ≠ .pointerBeyondRecord →
      s' = { s with channel := s'.channel } ∧ s'.card.files = s.card.files) ∧
    (e = .pointerBeyondRecord → ∃ i offset table refs b place iap id file slot record,
      s.Visit position i offset table refs b ∧ table.linkage kind = .type2 place ∧
      refs.on s.card.files .iap = some iap ∧ iap.recordLen ≤ place ∧ (old = [] ↔ new ≠ []) ∧
      s.Goal table refs i offset old new kind id slot record ∧ s.card.file? id = some file ∧
      s' = { s with channel := s'.channel,
                    blocks := s.blocks.set i (Desk.putRecord kind slot record b) } ∧
      s'.card.files = s.card.files.replace id (file.setRecord slot record) ∧
      (∀ other number, s'.card.record? other number =
        if other = id ∧ number = slot then some record else s.card.record? other number) ∧
      s.Stored kind i slot record s') := by
  intro s s' rejected
  have steady : s.Steady := (steady_start calm options).run commands
  rcases obey_update_cases s position old new kind with
    ⟨e', refused, early⟩ | ⟨i, offset, table, refs, b, outcome, d', v, ended, performed⟩
  · have same : s' = s := congrArg Prod.snd refused
    rw [refused] at rejected
    cases rejected
    rw [same]
    exact ⟨fun _ => ⟨rfl, rfl⟩, fun beyond => absurd beyond early⟩
  · have same : s' = s.withDesk i d' := congrArg Prod.snd performed
    rw [performed] at rejected
    have anchored := v.upheld steady.fastened
    have stocked := v.upheld steady.provided
    rw [same]
    cases ended with
    | refused e' d' block reads early =>
      cases rejected
      refine ⟨fun _ => ⟨?_, reads.files⟩, fun beyond => absurd beyond early⟩
      show ({ s.withDesk i ⟨s.channel, d'.block⟩ with channel := d'.channel } : Session) = _
      rw [block, withDesk_eq_self v.here]
      rfl
    | halted id file slot record d₁ place e' d' aim wrote pointed differ failed block reads why =>
      cases rejected
      have goal := v.goal aim
      obtain ⟨beyond, iap, found, short⟩ := beyond_of_halted (d := ⟨s.channel, b⟩) anchored
        steady.calm (pointed ▸ aim) wrote failed
      have left : d'.block = Desk.putRecord kind slot record b := by rw [block, wrote.block]
      have files : d'.card.files = s.card.files.replace id (file.setRecord slot record) := by
        rw [reads.files, wrote.files]
        rfl
      refine ⟨fun no => absurd beyond no, fun _ => ⟨i, offset, table, refs, b, place, iap, id, file,
        slot, record, v, pointed, found, short, Desk.isEmpty_ne_iff.1 differ, goal, aim.found, ?_,
        files, Card.record?_of_replace aim.found files aim.low aim.high,
        v.stored (fun other => ?_) fun store => ?_⟩⟩
      · show ({ s with channel := _, blocks := s.blocks.set i d'.block } : Session) = _
        rw [left]
        rfl
      · rw [left, Desk.store_putRecord]
      · exact stocked.lt_size pointed (Desk.on_eq_some aim.named aim.found) aim.low aim.high
    | settled => cases rejected
    | relinked => cases rejected

/-- A block of one entry, whose index-pointer record is too short for the pointer byte of the second
file that the reference file links by it. -/
def shortCard : Card where
  files := ⟨[
    (.ofNat 0x4F25, ⟨1, [[0x00]]⟩),
    (.ofNat 0x4F30, ⟨20, [[0xA8, 0x08, 0xC0, 0x02, 0x4F, 0x3A, 0xC1, 0x02, 0x4F, 0x25,
      0xA9, 0x08, 0xC3, 0x02, 0x4F, 0x19, 0xCA, 0x02, 0x4F, 0x50]]⟩),
    (.ofNat 0x4F3A, ⟨14, [Bytes.blank 14]⟩),
    (.ofNat 0x4F50, ⟨6, [Bytes.blank 6, Bytes.blank 6]⟩)]⟩

/-- To replace a value that is not there changes nothing, to add one writes its record to the first
slot and fails. -/
theorem rejected_shortCard :
    let s := (start shortCard {}).run [.load]
    let replaced := s.obey (.update 0 ['x'] ['a'] .email)
    let added := s.obey (.update 0 [] ['a'] .email)
    (replaced.1 = some .noLinkedSlot ∧ replaced.2 = { s with channel := replaced.2.channel } ∧
      replaced.2.card.files = s.card.files) ∧
    added.1 = some .pointerBeyondRecord ∧
    (∀ other number, added.2.card.record? other number =
      if other = .ofNat 0x4F50 ∧ number = 1 then some [0x61, 0xFF, 0xFF, 0xFF, 0xFF, 0x01]
      else s.card.record? other number) ∧
    added.2.slot? .email 0 0 = some ⟨[0x61, 0xFF, 0xFF, 0xFF, 0xFF, 0x01], true⟩ ∧
    added.2.slot? .email 0 1 = s.slot? .email 0 1 := by
  intro s replaced added
  have refused : replaced.1 = some .noLinkedSlot := by decide +kernel
  have halted : added.1 = some .pointerBeyondRecord := by decide +kernel
  have here : s.locate? 0 = some (0, 0) := by decide +kernel
  have called : s.table.bind (fun table => (table.block? 0).bind (·.file? .email)) =
      some (.ofNat 0x4F50) := by decide +kernel
  have free : s.slotOf? .email 0 0 = none ∧ s.firstFree? .email 0 = some 0 := by decide +kernel
  have length : (s.card.file? (.ofNat 0x4F50)).map (·.recordLen) = some 6 := by decide +kernel
  have held : (s.store? .email 0).isSome := by decide +kernel
  refine ⟨⟨refused, ?_⟩, halted, ?_⟩
  · exact (rejected_update rfl {} [.load] 0 ['x'] ['a'] .email .noLinkedSlot refused).1 nofun
  · obtain ⟨i, offset, table, refs, b, place, iap, id, file, slot, record, v, pointed, -, -, -,
      goal, found, -, -, records, stored⟩ :=
      (rejected_update rfl {} [.load] 0 [] ['a'] .email .pointerBeyondRecord halted).2 rfl
    cases here.symm.trans v.located
    rw [v.held, Option.bind_some, v.named, Option.bind_some] at called
    cases called.symm.trans goal.named
    rw [found] at length
    obtain ⟨-, named | ⟨-, -, first⟩, file', found', encoded⟩ := goal.pointed place pointed
    · cases free.1.symm.trans named
    · have one : slot = 1 := by
        have same := Option.some.inj (free.2.symm.trans first)
        have low := goal.low
        omega
      cases found.symm.trans found'
      have length : file.recordLen = 6 := Option.some.inj length
      rw [length] at encoded
      cases encoded
      subst one
      exact ⟨records, stored.held held, stored.others .email 0 1 (.inr (.inr nofun))⟩

/-- An update that fails leaves a record on the card, and a slot in use that no entry names. -/
theorem record_left_shortCard :
    let s := (start shortCard {}).run [.load]
    let s' := (s.obey (.update 0 [] ['a'] .email)).2
    shortCard.faults = [] ∧ (s.obey (.update 0 [] ['a'] .email)).1 = some .pointerBeyondRecord ∧
      s.card.record? (.ofNat 0x4F50) 1 = some (Bytes.blank 6) ∧
      s'.card.record? (.ofNat 0x4F50) 1 = some [0x61, 0xFF, 0xFF, 0xFF, 0xFF, 0x01] ∧
      s.freeInBlock .email 0 = 2 ∧ s'.freeInBlock .email 0 = 1 := by
  decide +kernel

end Session

end UsimPhonebook
