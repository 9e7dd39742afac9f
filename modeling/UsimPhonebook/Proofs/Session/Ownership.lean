import UsimPhonebook.Proofs.Session.Effect
import UsimPhonebook.Proofs.Session.Invariant

/-! # Who owns a slot

On the card of a sound phonebook no two entries of a block name the same slot of a kind, and this
stays so under every run in which no request fails, as long as no entry that names a slot is updated
without any text (`Session.Careful`). An update without any text blanks the slot and sets it free
but leaves the pointer byte, so that the slot can go to a second entry
(`Session.exclusive_of_careful`).

The invariant is `Session.Sound`: the card is sound, the session goes by its table, what the session
holds is on the card, and every slot that an entry names is in use.
-/

namespace UsimPhonebook.Session

/-- What is held of a block is on its files, and every slot that an entry names is in use. -/
def Owned : BlockProperty := fun table _ files b =>
  b.Mirrors table files ∧ (files.WellLinked table → b.Guarded table files)

/-- The card is sound and the session knows it. -/
structure Sound (s : Session) : Prop where
  formed : WellFormed s.options.referenceFile s.card.files
  rooted : s.Rooted
  upholds : s.Upholds Owned

/-- No two entries of a block name the same slot of a kind, neither on the card nor by the
index-pointer records that are held. -/
structure Exclusive (s : Session) : Prop where
  card : ∀ table i refs kind position a b slot,
    Reference.Table.on? s.card.files s.options.referenceFile = some table →
    table.block? i = some refs → table.linkage kind = .type2 position →
    a < (refs.on s.card.files).addressCount → b < (refs.on s.card.files).addressCount →
    (refs.on s.card.files).slot? position a = some slot →
    (refs.on s.card.files).slot? position b = some slot → a = b
  held : ∀ kind i a b slot, s.slotOf? kind i a = some slot → s.slotOf? kind i b = some slot → a = b

/-- No request of the command fails, and it does not update without any text an entry that names a
slot. -/
structure Careful (s : Session) (command : Command) : Prop where
  served : (s.obey command).2.card.failures = s.card.failures
  texts : ∀ position kind i offset, command = .update position [] [] kind →
    s.locate? position = some (i, offset) → s.slotOf? kind i offset = none

/-! ## Slots that are named are in use -/

/-- A block whose values are joined has every slot in use that an entry names. -/
theorem guarded_of_joined {b : BlockState} {table : Reference.Table} {files : BlockFiles}
    (mirrors : b.Mirrors table files) (linked : files.WellLinked table)
    (joined : ∀ kind, b.Joined (table.linkage kind) kind files) : b.Guarded table files := by
  intro kind position offset named store pointed loaded stored inside names
  obtain ⟨es, loaded⟩ := Option.isSome_iff_exists.1 loaded
  obtain ⟨file, record, found, there, some⟩ := linked.live kind position offset named pointed inside
    names
  obtain ⟨low, -⟩ := BlockFiles.range_of_slot? names
  rw [RecordFile.record?_eq low] at there
  have short := (List.getElem?_eq_some_iff.1 there).1
  have room := mirrors.lt_size stored found low (by omega) fun no => by rw [pointed] at no; cases no
  have slot : store.slots[named - 1]? = .some store.slots[named - 1] :=
    List.getElem?_eq_getElem room
  refine ⟨_, slot, ?_⟩
  rw [(joined kind).flags es store (named - 1) _ loaded stored slot]
  refine ⟨offset, kind.decode record, ?_, ?_⟩
  · rw [(mirrors.entries es loaded).2.1]
    exact inside
  · unfold BlockFiles.value? BlockFiles.linkedSlot? BlockFiles.stored?
    rw [pointed]
    dsimp only
    rw [names]
    dsimp only [Option.map_some]
    rw [found, Option.bind_some, there]
    dsimp only
    rw [if_neg some]
    rfl

theorem loads_owned : Loads (fun _ => True) Owned where
  keeps _ _ _ _ := trivial
  empty table refs files := by
    refine ⟨BlockState.mirrors_empty table files,
      fun _ kind position offset named store _ loaded => ?_⟩
    cases loaded
  invalidate table refs files b h := by
    refine ⟨h.1.invalidate, fun _ kind position offset named store _ loaded => ?_⟩
    cases loaded
  load table refs share d _ h := by
    rcases Desk.load_cases h.1 share with
      ⟨e, d', failed, block, -, -⟩ | ⟨b, es, d', ok, block, -, mirrors, loaded, -, -⟩
    · rw [failed]
      show Owned table refs _ d'.block
      rw [block]
      exact h
    · rw [ok]
      show Owned table refs _ d'.block
      rw [block]
      exact ⟨mirrors.join, fun linked => guarded_of_joined mirrors.join linked
        (BlockState.joined_join mirrors)⟩

/-- An edit after which the entry names no slot unless a value was put there keeps all in order. -/
theorem owned_of_effect {table : Reference.Table} {reference : FileId} {i offset slot : Nat}
    {refs : Reference.Block} {kind : FieldKind} {old new : Text} {d d' : Desk}
    {outcome : Except Error Unit} {file : RecordFile} {record : Bytes}
    (ready : Desk.Ready table reference i refs offset d)
    (effect : Desk.Effect table refs kind offset old new d d' outcome slot file record)
    (own : ∀ position named, table.linkage kind = .type2 position →
      (refs.on d'.card.files).slot? position offset = some named → new ≠ []) :
    (refs.on d'.card.files).WellLinked table ∧
      Owned table refs (refs.on d'.card.files) d'.block := by
  refine ⟨effect.edited.wellLinked ready.linked ready.apart effect.alone
    fun position named pointed names => ?_, effect.mirrors, fun _ => ?_⟩
  · refine ⟨(effect.own position named pointed names).1, fun empty => ?_⟩
    exact own position named pointed names (effect.empty.1 empty)
  · refine ready.guarded.edited ready.mirrors effect.edited ready.apart effect.alone
      (fun position named pointed names => ?_) (fun _ => ready.loaded) effect.stores
    refine ⟨(effect.own position named pointed names).1, ?_⟩
    rw [Bool.eq_false_iff, ne_eq, effect.blank]
    exact own position named pointed names

/-! ## Every command -/

variable {s : Session}

theorem sound_start {card : Card} {options : Options}
    (formed : WellFormed options.referenceFile card.files) : (start card options).Sound where
  formed := formed
  rooted := ⟨nofun, nofun, rfl⟩
  upholds := by
    intro table i refs b held
    cases held

theorem Sound.continues (sound : s.Sound) {s' : Session} (h : s.Continues s') : s'.Sound where
  formed := by
    rw [h.options, h.reads.files]
    exact sound.formed
  rooted := h.rooted sound.rooted
  upholds := h.upholds _ _ loads_owned trivial sound.upholds

section

variable {position i offset : Nat} {table : Reference.Table} {refs : Reference.Block}
  {b : BlockState}

theorem Sound.ready (sound : s.Sound) (v : s.Visit position i offset table refs b) :
    Desk.Ready table s.options.referenceFile i refs offset ⟨s.channel, b⟩ := by
  have rooted := (sound.rooted.table table v.held).1
  obtain ⟨mirrors, guarded⟩ := v.upheld sound.upholds
  have linked := sound.formed.linked table i refs rooted v.named
  exact ⟨sound.formed.separate table rooted, sound.formed.apart rooted, v.named, sound.formed.sized,
    linked, mirrors, guarded linked, v.loaded, v.lt_addressCount mirrors⟩

end

theorem Sound.withDesk (sound : s.Sound) {table : Reference.Table} {i : Nat}
    {refs : Reference.Block} {d : Desk} (held : s.table = some table)
    (named : table.block? i = some refs) {b : BlockState}
    (confined : Desk.Confined table s.options.referenceFile i ⟨s.channel, b⟩ d)
    (linked : (refs.on d.card.files).WellLinked table)
    (owned : Owned table refs (refs.on d.card.files) d.block) : (s.withDesk i d).Sound := by
  have rooted := (sound.rooted.table table held).1
  have root : Reference.Table.on? d.card.files s.options.referenceFile = some table :=
    confined.rooted.trans rooted
  have table_eq {other : Reference.Table}
      (h : Reference.Table.on? d.card.files s.options.referenceFile = some other) :
      other = table := by
    rw [root] at h
    exact (Option.some.inj h).symm
  refine ⟨⟨confined.sized sound.formed.sized, ?_, ?_, ?_⟩, sound.rooted.withDesk confined.rooted,
    .withDesk held named (fun j refs' b' named' here' ne => ?_) owned⟩
  · intro other h
    rw [table_eq h]
    exact sound.formed.separate table rooted
  · intro other position h
    rw [table_eq h]
    exact sound.formed.places table position rooted
  · intro other j refs' h named'
    rw [table_eq h] at named' ⊢
    by_cases same : j = i
    · subst same
      rw [named] at named'
      cases named'
      exact linked
    · show (refs'.on d.card.files).WellLinked table
      rw [confined.others j refs' named' same]
      exact sound.formed.linked table j refs' rooted named'
  · rw [confined.others j refs' named' ne]
    exact sound.upholds table j refs' b' held named' here'

theorem Sound.obey (sound : s.Sound) {command : Command} (careful : s.Careful command) :
    (s.obey command).2.Sound := by
  rcases s.continues_or_update command with continues | ⟨position, old, new, kind, rfl⟩
  · exact sound.continues continues
  · obtain ⟨served, texts⟩ := careful
    rcases obey_update_cases s position old new kind with
      ⟨e, refused, -⟩ | ⟨i, offset, table, refs, b, outcome, d', v, ended, performed⟩
    · rw [refused]
      exact sound
    · rw [performed] at served ⊢
      have ready := sound.ready v
      have confined := ended.confined ready.separate ready.named
      rcases ended.effect ready with ⟨e, -, block, reads⟩ | ⟨slot, file, record, effect⟩
      · refine sound.withDesk v.held v.named confined ?_ ?_
        · rw [reads.files]
          exact ready.linked
        · rw [reads.files, block]
          exact v.upheld sound.upholds
      · obtain ⟨linked, owned⟩ := owned_of_effect ready effect
          fun place named pointed names empty => by
            obtain ⟨-, value | ⟨here, none | failed⟩⟩ := effect.own place named pointed names
            · exact value empty
            · subst none empty
              have unnamed := texts position kind i offset rfl v.located
              rw [v.slotOf?_eq pointed, effect.held place pointed, here] at unnamed
              cases unnamed
            · rw [card_withDesk] at served
              exact absurd served (Nat.ne_of_gt failed)
        exact sound.withDesk v.held v.named confined linked owned

theorem Sound.run (sound : s.Sound) {commands : List Command} (careful : s.Along Careful commands) :
    (s.run commands).Sound :=
  run_induction (fun _ _ sound careful => sound.obey careful) sound careful

/-! ## Slots have one owner -/

theorem Sound.exclusive (sound : s.Sound) : s.Exclusive where
  card table i refs kind position a b slot rooted named pointed insideA insideB namesA namesB :=
    (sound.formed.linked table i refs rooted named).exclusive kind position a b slot pointed insideA
      insideB namesA namesB
  held kind i a b slot namesA namesB := by
    cases linkage : s.linkage kind with
    | type1 =>
      unfold slotOf? at namesA
      rw [linkage] at namesA
      cases namesA
    | type2 position =>
      cases held : s.table with
      | none =>
        unfold Session.linkage at linkage
        rw [held] at linkage
        cases linkage
      | some table =>
        have pointed : table.linkage kind = .type2 position :=
          (linkage_of_table held kind).symm.trans linkage
        unfold slotOf? at namesA namesB
        rw [linkage] at namesA namesB
        obtain ⟨state, here, namesA⟩ := Option.bind_eq_some_iff.1 namesA
        obtain ⟨state', here', namesB⟩ := Option.bind_eq_some_iff.1 namesB
        rw [here] at here'
        cases here'
        have short : i < table.blocks.length := by
          have length := sound.rooted.blocks
          rw [held] at length
          have inside := (List.getElem?_eq_some_iff.1 here).1
          rw [length] at inside
          exact inside
        obtain ⟨refs, named⟩ : ∃ refs, table.block? i = some refs :=
          ⟨_, List.getElem?_eq_getElem short⟩
        obtain ⟨mirrors, -⟩ := sound.upholds table i refs state held named here
        obtain ⟨heldA, keptA, -⟩ := Option.bind_eq_some_iff.1 namesA
        obtain ⟨heldB, keptB, -⟩ := Option.bind_eq_some_iff.1 namesB
        have kept := BlockState.isSome_of_pointer? keptA
        by_cases inside : a < (refs.on s.card.files).addressCount ∧
            b < (refs.on s.card.files).addressCount
        · rw [mirrors.slot?_eq kept inside.1 position] at namesA
          rw [mirrors.slot?_eq kept inside.2 position] at namesB
          exact (sound.formed.linked table i refs (sound.rooted.table table held).1 named).exclusive
            kind position a b slot pointed inside.1 inside.2 namesA namesB
        · have shortA := mirrors.lt_of_pointer? keptA
          have shortB := mirrors.lt_of_pointer? keptB
          omega

/-! ## How a slot gets a second owner -/

/-- Whether a slot of a kind in a block is in use. -/
def used? (s : Session) (kind : FieldKind) (block index : Nat) : Option Bool :=
  (s.blocks[block]?.bind (·.store kind)).bind fun store => store.slots[index]?.map (·.used)

/-- The slot that an entry names after work on its block. -/
theorem Visit.slotOf?_withDesk {position i offset : Nat} {table : Reference.Table}
    {refs : Reference.Block} {b : BlockState} (v : s.Visit position i offset table refs b)
    {kind : FieldKind} {place : Nat} (pointed : table.linkage kind = .type2 place) (d : Desk)
    (other : Nat) : (s.withDesk i d).slotOf? kind i other =
      (d.block.pointer? other).bind (pointedSlot? · place) := by
  have inside := (List.getElem?_eq_some_iff.1 v.here).1
  have linkage : (s.withDesk i d).linkage kind = .type2 place :=
    (linkage_of_table ((table_withDesk s i d).trans v.held) kind).trans pointed
  unfold slotOf?
  rw [linkage]
  show ((s.blocks.set i d.block)[i]?).bind _ = _
  rw [List.getElem?_set_self inside]
  rfl

/-- An update without any text leaves the pointer byte of an entry and takes the slot out of use. -/
theorem slotOf?_obey_of_no_text {position i offset slot : Nat} {kind : FieldKind}
    (located : s.locate? position = some (i, offset))
    (names : s.slotOf? kind i offset = some slot)
    (ok : (s.obey (.update position [] [] kind)).1 = none) :
    (s.obey (.update position [] [] kind)).2.slotOf? kind i offset = some slot ∧
      (s.obey (.update position [] [] kind)).2.used? kind i (slot - 1) ≠ some true := by
  obtain ⟨i', offset', table, refs, b, d', v, ended, performed⟩ := ended_of_obey ok
  rw [performed]
  have same := v.located
  rw [located] at same
  cases same
  obtain ⟨place, pointed⟩ := v.linkage_of_slotOf? names
  rw [v.slotOf?_eq pointed] at names
  rw [v.slotOf?_withDesk pointed]
  rw [pointed] at ended
  cases ended with
  | relinked _ _ _ _ _ _ _ _ _ _ _ _ _ differ => exact absurd rfl differ
  | settled id file slot' record d₁ aim wrote =>
    obtain ⟨held, kept, cases⟩ := BlockState.resolveSlot_cases aim.resolved
    have kept : b.pointer? offset = some held := kept
    rw [kept] at names
    have names : pointedSlot? held place = some slot := names
    have slot_eq : slot' = slot := by
      rcases cases with named | ⟨unnamed, -⟩
      · rw [names] at named
        exact (Option.some.inj named).symm
      · rw [names] at unnamed
        cases unnamed
    subst slot_eq
    constructor
    · show ((Desk.applyValue kind offset record d₁.block).pointers.bind (·[offset]?)).bind _ = _
      rw [Desk.pointers_applyValue, wrote.block, Desk.pointers_putRecord]
      show (b.pointer? offset).bind _ = _
      rw [kept]
      exact names
    · have inside := (List.getElem?_eq_some_iff.1 v.here).1
      have block : (s.withDesk i { d₁ with
          block := Desk.applyValue kind offset record d₁.block }).blocks[i]? =
            some (Desk.applyValue kind offset record d₁.block) := by
        show (s.blocks.set i _)[i]? = _
        rw [List.getElem?_set_self inside]
      unfold used?
      rw [block, Option.bind_some, Desk.store_applyValue, wrote.block, Desk.store_putRecord,
        if_pos rfl]
      cases b.store kind with
      | none => nofun
      | some store =>
        rw [Option.map_some, Option.bind_some, FieldStore.slot?_put]
        have blank := (Desk.encodeField_spec aim.encoded).2.2.2 rfl
        simp [FieldStore.written, blank]

/-- After a value was added the index-pointer record of the entry alone differs, and it names the
slot that was picked. -/
theorem pointer?_of_relinked {refs : Reference.Block} {kind : FieldKind} {offset place slot : Nat}
    {new : Text} {d d₁ d₂ : Desk} {id iap : FileId} {file pointers : RecordFile}
    {record pointer held : Bytes} (low : 1 ≤ slot) (high : slot ≤ maxPointedSlot) (value : new ≠ [])
    (kept : d.block.pointer? offset = some held)
    (wrote : Desk.Wrote (Desk.putRecord kind slot record) d id file slot record d₁)
    (relinked : Desk.Relinked refs offset place (Desk.pointerTo slot new) d₁ iap pointers pointer
      d₂) :
    let b := Desk.applyValue kind offset record d₂.block
    (∀ other, other ≠ offset → b.pointer? other = d.block.pointer? other) ∧
      (b.pointer? offset).bind (pointedSlot? · place) = some slot := by
  intro b
  obtain ⟨records, kept', there⟩ := Option.bind_eq_some_iff.1 kept
  have short := (List.getElem?_eq_some_iff.1 there).1
  have pointers_eq : b.pointers = some (records.set offset pointer) := by
    show (Desk.applyValue kind offset record d₂.block).pointers = _
    rw [Desk.pointers_applyValue, relinked.block, Desk.pointers_setPointer, wrote.block,
      Desk.pointers_putRecord, kept']
    rfl
  unfold BlockState.pointer?
  rw [pointers_eq, kept']
  refine ⟨fun other ne => List.getElem?_set_ne (Ne.symm ne), ?_⟩
  have room := relinked.place
  show (((records.set offset pointer)[offset]?).bind _) = _
  rw [List.getElem?_set_self short, relinked.eq]
  show pointedSlot? (Desk.pointerRecord _ _ _ _) place = _
  unfold Desk.pointerRecord
  rw [Desk.pointedSlot?_set_pointerTo (by rw [Bytes.length_fitTo]; exact room) low high,
    if_neg value]

/-- A value that is added to an entry that names no slot takes the first free one, whoever may name
it already. -/
theorem slotOf?_obey_of_add {position i offset other slot : Nat} {kind : FieldKind} {new : Text}
    (located : s.locate? position = some (i, offset)) (ne : other ≠ offset)
    (names : s.slotOf? kind i other = some slot) (unnamed : s.slotOf? kind i offset = none)
    (free : s.firstFree? kind i = some (slot - 1)) (value : new ≠ [])
    (ok : (s.obey (.update position [] new kind)).1 = none) :
    (s.obey (.update position [] new kind)).2.slotOf? kind i other = some slot ∧
      (s.obey (.update position [] new kind)).2.slotOf? kind i offset = some slot := by
  obtain ⟨i', offset', table, refs, b, d', v, ended, performed⟩ := ended_of_obey ok
  rw [performed]
  have same := v.located
  rw [located] at same
  cases same
  obtain ⟨place, pointed⟩ := v.linkage_of_slotOf? names
  rw [v.slotOf?_eq pointed] at names unnamed
  rw [v.slotOf?_withDesk pointed, v.slotOf?_withDesk pointed]
  rw [pointed] at ended
  cases ended with
  | settled _ _ _ _ _ _ _ idle =>
    rcases idle with idle | idle
    · cases idle
    · exact absurd (List.isEmpty_iff.1 idle.symm) value
  | relinked id file slot' record d₁ place' iap pointers pointer d₂ aim wrote pointed' _ relinked =>
    cases pointed'
    obtain ⟨held, kept, cases⟩ := BlockState.resolveSlot_cases aim.resolved
    obtain ⟨low, high⟩ : 1 ≤ slot ∧ slot ≤ maxPointedSlot := by
      obtain ⟨_, _, names⟩ := Option.bind_eq_some_iff.1 names
      obtain ⟨_, _, _, range⟩ := pointedSlot?_eq_some_iff.1 names
      exact range
    have slot_eq : slot' = slot := by
      rcases cases with named | ⟨-, -, store, index, stored, first, -, rfl⟩
      · have kept : b.pointer? offset = some held := kept
        rw [kept] at unnamed
        have unnamed : pointedSlot? held place = none := unnamed
        rw [unnamed] at named
        cases named
      · have stored : b.store kind = some store := stored
        unfold firstFree? at free
        rw [v.here, Option.bind_some, stored, Option.bind_some, first] at free
        cases free
        omega
    subst slot_eq
    obtain ⟨others, own⟩ := pointer?_of_relinked low high value kept wrote relinked
    exact ⟨by rw [others other ne]; exact names, own⟩

/-- Slots stay with one owner under every run of careful commands on the card of a sound phonebook.
The care is needed: an update without any text, of an entry that names a slot, leaves the pointer
byte and takes the slot out of use; and once it is the first free one, the next entry of the block
that a value is added to names it too. -/
theorem exclusive_of_careful {card : Card} {options : Options}
    (formed : WellFormed options.referenceFile card.files) (commands : List Command) :
    ((start card options).Along Careful commands → ((start card options).run commands).Exclusive) ∧
    ∀ position kind i offset slot,
      let s := (start card options).run commands
      let s' := (s.obey (.update position [] [] kind)).2
      s.locate? position = some (i, offset) → s.slotOf? kind i offset = some slot →
      (s.obey (.update position [] [] kind)).1 = none →
      s'.slotOf? kind i offset = some slot ∧ s'.used? kind i (slot - 1) ≠ some true ∧
      ∀ next other new, s'.locate? next = some (i, other) → other ≠ offset →
        s'.slotOf? kind i other = none → s'.firstFree? kind i = some (slot - 1) → new ≠ [] →
        (s'.obey (.update next [] new kind)).1 = none →
        ¬ (s'.obey (.update next [] new kind)).2.Exclusive := by
  refine ⟨fun careful => ((sound_start formed).run careful).exclusive, ?_⟩
  intro position kind i offset slot s s' located names ok
  obtain ⟨names', unused⟩ := slotOf?_obey_of_no_text located names ok
  refine ⟨names', unused, ?_⟩
  intro next other new located' ne unnamed free value ok' exclusive
  obtain ⟨first, second⟩ :=
    slotOf?_obey_of_add located' ne.symm names' unnamed free value ok'
  exact ne (exclusive.held kind i other offset slot second first)

/-- A block of two entries, of which the first names the first of two slots. -/
def pairCard : Card where
  files := ⟨[
    (.ofNat 0x4F25, ⟨1, [[0x01], [0x00]]⟩),
    (.ofNat 0x4F30, ⟨16, [[0xA8, 0x08, 0xC0, 0x02, 0x4F, 0x3A, 0xC1, 0x02, 0x4F, 0x25,
      0xA9, 0x04, 0xCA, 0x02, 0x4F, 0x50]]⟩),
    (.ofNat 0x4F3A, ⟨14, [Bytes.blank 14, Bytes.blank 14]⟩),
    (.ofNat 0x4F50, ⟨6, [[0x61, 0xFF, 0xFF, 0xFF, 0xFF, 0x01], Bytes.blank 6]⟩)]⟩

/-- To add a value to the second entry and take that of the first keeps the slots apart, to update
the first without any text before the second gets its value does not. -/
theorem exclusive_pairCard :
    ((start pairCard {}).run
      [.load, .update 1 [] ['b'] .email, .update 0 ['a'] [] .email]).Exclusive ∧
    ¬ ((start pairCard {}).run
      [.load, .update 0 [] [] .email, .update 1 [] ['b'] .email]).Exclusive := by
  have formed : WellFormed ({} : Options).referenceFile pairCard.files := by decide +kernel
  constructor
  · refine (exclusive_of_careful formed _).1 ⟨?_, ?_, ?_, trivial⟩
    · exact ⟨by decide +kernel, nofun⟩
    · exact ⟨by decide +kernel, nofun⟩
    · exact ⟨by decide +kernel, nofun⟩
  · obtain ⟨-, -, taken⟩ := (exclusive_of_careful formed [.load]).2 0 .email 0 0 1
      (by decide +kernel) (by decide +kernel) (by decide +kernel)
    exact taken 1 1 ['b'] (by decide +kernel) (by decide) (by decide +kernel) (by decide +kernel)
      (by decide) (by decide +kernel)

/-- On a sound card, and without any request that fails, two entries come to name one slot, in the
session and on the card. -/
theorem shared_slot_pairCard :
    let s := (start pairCard {}).run
      [.load, .update 0 [] [] .email, .update 1 [] ['b'] .email]
    WellFormed s.options.referenceFile pairCard.files ∧ s.card.failures = 0 ∧
      s.slotOf? .email 0 0 = some 1 ∧ s.slotOf? .email 0 1 = some 1 ∧
      s.card.record? (.ofNat 0x4F25) 1 = some [0x01] ∧
      s.card.record? (.ofNat 0x4F25) 2 = some [0x01] := by
  decide +kernel

end UsimPhonebook.Session
