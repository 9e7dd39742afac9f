import UsimPhonebook.Proofs.Session.Containment
import UsimPhonebook.Report

/-! # The numbering of the entries

An entry that is held at an offset of a block is the one of the record with the next higher number
in the address file that the table names for the block (`BlockState.Numbered`). That is so whatever
else writes to the card, for it asks nothing of the card: loading numbers the entries, and an edit
changes the values of one. The report of all entries goes by the same positions as every lookup
(`Session.getElem?_listReport`), and the one without the empty entries leaves out nothing else
(`Session.listReport_true`).

Together this makes a position a name of an entry (`Session.positions_number_entries`).
-/

namespace UsimPhonebook

/-- Every entry that is held of the block comes from the address file of the block, and from the
record that its offset says. -/
def BlockState.Numbered (refs : Reference.Block) (b : BlockState) : Prop :=
  ∀ offset e, b.entryAt? offset = some e →
    refs.file? .adn = some e.file ∧ e.recordNumber = offset + 1

namespace Desk

variable {refs : Reference.Block} {table : Reference.Table} {share : Bool} {d d' : Desk}

theorem numbered_load (numbered : d.block.Numbered refs) :
    ((load refs table share).perform d).2.block.Numbered refs := by
  rcases load_ends refs table share d with ⟨e, d', failed, block⟩ | ⟨b, -, d', ok, -, -⟩
  · rw [failed]
    show d'.block.Numbered refs
    rwa [block]
  · obtain ⟨id, file, es, named, -, loaded, -, decoded⟩ := decoded_of_load ok
    rw [ok]
    show d'.block.Numbered refs
    intro offset e here
    unfold BlockState.entryAt? at here
    rw [loaded] at here
    obtain ⟨record, -, plain | extended⟩ := decoded offset e here
    · obtain ⟨file', number, -, -⟩ := Entry.eq_of_strip plain
      rw [file', number, (Entry.decode_frame ..).1, (Entry.decode_frame ..).2]
      exact ⟨named, rfl⟩
    · obtain ⟨file', number, -, -⟩ := Entry.eq_of_strip extended
      obtain ⟨plainFile, plainNumber, -⟩ :=
        (refs.on d.card.files).plainEntry_frame id offset record
      rw [file', number, plainFile, plainNumber]
      exact ⟨named, rfl⟩

/-- Other values leave an entry at its place. -/
theorem numbered_ended {linkage : Linkage} {kind : FieldKind} {offset : Nat} {old new : Text}
    {outcome : Except Error Unit} (ended : Ended refs linkage kind offset old new d outcome d')
    (numbered : d.block.Numbered refs) : d'.block.Numbered refs := by
  intro place e here
  unfold BlockState.entryAt? at here
  rcases ended.entries_cases with ⟨-, same⟩ | ⟨-, values, changed⟩
  · rw [same] at here
    exact numbered place e here
  · rw [changed, Option.bind_map, Option.bind_eq_some_iff] at here
    obtain ⟨es, loaded, there⟩ := here
    have there : (es.modify offset (·.setValues kind values))[place]? = some e := there
    rw [List.getElem?_modify, Option.map_eq_map, Option.map_eq_some_iff] at there
    obtain ⟨e₀, at', rfl⟩ := there
    have before := numbered place e₀ (by
      unfold BlockState.entryAt?
      rw [loaded]
      exact at')
    split
    · obtain ⟨file, number, -, -⟩ := Entry.eq_of_strip (BlockState.strip_setValues e₀ kind values)
      rwa [file, number]
    · exact before

end Desk

namespace Session

variable {s : Session}

/-! ## Every block is numbered -/

/-- The blocks are those of the table, and each of them is numbered. -/
structure Counted (s : Session) : Prop where
  shaped : s.Shaped
  numbered : s.Upholds fun _ refs _ b => b.Numbered refs

theorem loads_numbered : Loads (fun _ => True) fun _ refs _ b => b.Numbered refs where
  keeps _ _ _ _ := trivial
  empty _ _ _ := nofun
  invalidate _ _ _ _ _ := nofun
  load _ _ _ _ _ := Desk.numbered_load

theorem Counted.obey (counted : s.Counted) (command : Command) : (s.obey command).2.Counted := by
  rcases s.continues_or_update command with continues | ⟨position, old, new, kind, rfl⟩
  · exact ⟨continues.shaped counted.shaped,
      continues.upholds _ _ loads_numbered trivial counted.numbered⟩
  · rcases obey_update_cases s position old new kind with
      ⟨e, refused, -⟩ | ⟨i, offset, table, refs, b, outcome, d', v, ended, performed⟩
    · rw [refused]
      exact counted
    · rw [performed]
      refine ⟨counted.shaped.withDesk i d', .withDesk v.held v.named ?_ ?_⟩
      · exact fun j refs' b' named' here' _ => counted.numbered table j refs' b' v.held named' here'
      · exact Desk.numbered_ended ended (v.upheld counted.numbered)

theorem counted_start (card : Card) (options : Options) : (start card options).Counted where
  shaped := rfl
  numbered := by
    intro table i refs b held
    cases held

theorem counted_despite (card : Card) (options : Options) (incidents : List Incident) :
    ((start card options).despite incidents).Counted :=
  despite_invariant (motive := Counted) (fun _ command counted => counted.obey command)
    (fun _ _ counted => ⟨counted.shaped, counted.numbered⟩) (counted_start card options) incidents

/-! ## Lookups -/

theorem entryAt?_of_locate? {position i offset : Nat} {b : BlockState}
    (located : s.locate? position = some (i, offset)) (here : s.blocks[i]? = some b) :
    s.entryAt? position = b.entryAt? offset := by
  unfold entryAt?
  rw [located]
  dsimp only
  rw [here]
  rfl

theorem isSome_entryAt?_iff (s : Session) (position : Nat) :
    (s.entryAt? position).isSome ↔ position < s.entryCount := by
  rw [← getElem?_entries, ← length_entries]
  simp

theorem entryReport?_eq_none_iff (s : Session) (position : Nat) :
    s.entryReport? position = none ↔ s.entryCount ≤ position := by
  have located : (s.locate? position).isSome ↔ position < s.entryCount := isSome_locateIn_iff
  have here := s.isSome_entryAt?_iff position
  unfold entryReport?
  cases place : s.locate? position with
  | none =>
    rw [place] at located
    exact ⟨fun _ => Nat.le_of_not_lt fun inside => Bool.noConfusion (located.2 inside),
      fun _ => rfl⟩
  | some place' =>
    have inside : position < s.entryCount := located.1 (by rw [place]; rfl)
    obtain ⟨e, there⟩ := Option.isSome_iff_exists.1 (here.2 inside)
    rw [there]
    exact ⟨nofun, fun beyond => absurd inside (Nat.not_lt_of_le beyond)⟩

theorem getElem?_listReport (s : Session) (position : Nat) :
    (s.listReport false)[position]? = s.entryReport? position := by
  have all : s.listReport false = (List.range s.entryCount).filterMap s.entryReport? :=
    List.filter_eq_self.2 fun _ _ => rfl
  have each : (s.listReport false).map some = (List.range s.entryCount).map s.entryReport? := by
    rw [all, List.map_filterMap_some_eq_filter_map_isSome, List.filter_eq_self]
    intro report member
    obtain ⟨p, inside, rfl⟩ := List.mem_map.1 member
    rw [Option.isSome_iff_ne_none, ne_eq, entryReport?_eq_none_iff, Nat.not_le]
    exact List.mem_range.1 inside
  have reports := congrArg (·[position]?) each
  simp only [List.getElem?_map] at reports
  by_cases inside : position < s.entryCount
  · rw [List.getElem?_range inside, Option.map_some] at reports
    obtain ⟨report, there, same⟩ := Option.map_eq_some_iff.1 reports
    rw [there, same]
  · have beyond := Nat.le_of_not_lt inside
    rw [List.getElem?_eq_none (l := List.range _) (by rwa [List.length_range]), Option.map_none,
      Option.map_eq_none_iff] at reports
    rw [reports, (s.entryReport?_eq_none_iff position).2 beyond]

theorem length_listReport (s : Session) : (s.listReport false).length = s.entryCount := by
  have same (position : Nat) :
      (s.listReport false).length ≤ position ↔ s.entryCount ≤ position := by
    rw [← List.getElem?_eq_none_iff, getElem?_listReport, entryReport?_eq_none_iff]
  exact Nat.le_antisymm ((same _).2 (Nat.le_refl _)) ((same _).1 (Nat.le_refl _))

theorem isEmpty_of_entryReport? {position : Nat} {report : EntryReport} {e : Entry}
    (shown : s.entryReport? position = some report) (here : s.entryAt? position = some e) :
    (report.alpha.isEmpty && report.number.isEmpty) = e.isEmpty := by
  unfold entryReport? at shown
  rw [here] at shown
  split at shown
  · rename_i same
    cases same
    cases shown
    rfl
  · cases shown

/-- The shorter report leaves out the empty entries, and no others. -/
theorem listReport_true (s : Session) : s.listReport true =
    ((List.range s.entryCount).filter fun position =>
      !(s.entryAt? position).any Entry.isEmpty).filterMap s.entryReport? := by
  unfold listReport
  rw [List.filter_filterMap, List.filterMap_filter]
  refine List.filterMap_congr fun position inside => ?_
  obtain ⟨e, here⟩ :=
    Option.isSome_iff_exists.1 ((s.isSome_entryAt?_iff position).2 (List.mem_range.1 inside))
  cases shown : s.entryReport? position with
  | none => simp
  | some report =>
    rw [here, Option.any_some, ← isEmpty_of_entryReport? shown here, Bool.not_and,
      Option.filter_some]
    rfl

/-! ## Positions -/

/-- Positions number the entries, whatever commands led to the session and whatever happened to the
card between them. The positions below the number of entries, and no others, lead to an offset in a
block, each to another one, and the entries before the block and the offset add up to the position.
The entry there is the one that the list of all entries has at the position, and that the report of
all entries shows at it: the record with the number `offset + 1` of the address file that the table
names for the block. -/
theorem positions_number_entries (card : Card) (options : Options) (incidents : List Incident) :
    let s := (start card options).despite incidents
    (∀ position, (s.locate? position).isSome ↔ position < s.entryCount) ∧
    (∀ position block offset, s.locate? position = some (block, offset) ↔
      offset < s.blockEntryCount block ∧ s.blockOffset block + offset = position) ∧
    s.entries.length = s.entryCount ∧ (∀ position, s.entries[position]? = s.entryAt? position) ∧
    (s.listReport false).length = s.entryCount ∧
    ∀ position block offset, s.locate? position = some (block, offset) →
      ∃ table refs e, s.table = some table ∧ table.block? block = some refs ∧
        s.entryAt? position = some e ∧ refs.file? .adn = some e.file ∧
        e.recordNumber = offset + 1 ∧
        (s.listReport false)[position]? = some
          { index := position, block, file := e.file.text, record := e.recordNumber,
            alpha := e.alpha, number := e.number, emails := e.emails,
            additionalNumbers := e.additionalNumbers } := by
  intro s
  have counted : s.Counted := counted_despite card options incidents
  refine ⟨fun position => isSome_locateIn_iff, fun position block offset => ?_, s.length_entries,
    s.getElem?_entries, s.length_listReport, fun position block offset located => ?_⟩
  · unfold locate? blockEntryCount blockOffset
    rw [locateIn_eq_some_iff]
    constructor
    · rintro ⟨b, here, inside, sum⟩
      rw [here]
      exact ⟨inside, sum⟩
    · rintro ⟨inside, sum⟩
      cases here : s.blocks[block]? with
      | none =>
        rw [here] at inside
        cases inside
      | some b =>
        rw [here] at inside
        exact ⟨b, rfl, inside, sum⟩
  · obtain ⟨b, here, inside⟩ := locateIn_eq_some located
    obtain ⟨table, refs, held, named⟩ := counted.shaped.named here
    obtain ⟨e, there⟩ : ∃ e, b.entryAt? offset = some e := by
      rw [← getElem?_getD_entries]
      exact ⟨_, List.getElem?_eq_getElem (by rwa [length_getD_entries])⟩
    have found := (entryAt?_of_locate? located here).trans there
    obtain ⟨file, number⟩ := counted.numbered table block refs b held named here offset e there
    refine ⟨table, refs, e, held, named, found, file, number, ?_⟩
    rw [getElem?_listReport]
    unfold entryReport?
    rw [located, found]

/-- Two blocks, of two entries and of one. -/
def stackedCard : Card where
  files := ⟨[
    (.ofNat 0x4F30, ⟨6, [[0xA8, 0x04, 0xC0, 0x02, 0x4F, 0x3A],
      [0xA8, 0x04, 0xC0, 0x02, 0x4F, 0x3B]]⟩),
    (.ofNat 0x4F3A, ⟨14, [Bytes.blank 14, Bytes.blank 14]⟩),
    (.ofNat 0x4F3B, ⟨14, [Bytes.blank 14]⟩)]⟩

/-- When the first block cannot be read, the entry of the second one is at position 0. It is at
position 2 when the first block was read after all. -/
theorem positions_stackedCard :
    let struck := [Incident.card { stackedCard with faults := [(.readAll, .ofNat 0x4F3A)] },
      .command .load]
    let s := (start stackedCard {}).despite struck
    let s' := (start stackedCard {}).despite (struck ++ [.command .load])
    (∃ table refs e, s.table = some table ∧ table.block? 1 = some refs ∧ s.entryAt? 0 = some e ∧
      refs.file? .adn = some e.file ∧ e.recordNumber = 1) ∧
    ∃ table refs e, s'.table = some table ∧ table.block? 1 = some refs ∧ s'.entryAt? 2 = some e ∧
      refs.file? .adn = some e.file ∧ e.recordNumber = 1 := by
  intro struck s s'
  obtain ⟨-, -, -, -, -, each⟩ := positions_number_entries stackedCard {} struck
  obtain ⟨-, -, -, -, -, each'⟩ :=
    positions_number_entries stackedCard {} (struck ++ [.command .load])
  obtain ⟨table, refs, e, held, named, there, file, number, -⟩ := each 0 1 0 (by decide +kernel)
  obtain ⟨table', refs', e', held', named', there', file', number', -⟩ :=
    each' 2 1 0 (by decide +kernel)
  exact ⟨⟨table, refs, e, held, named, there, file, number⟩,
    table', refs', e', held', named', there', file', number'⟩

end Session

end UsimPhonebook
