import UsimPhonebook.Proofs.Session.Effect
import UsimPhonebook.Proofs.Session.Invariant

/-! # What a session holds is on the card, whatever fails

A session does not read again what it wrote. Still its records are those on the card after every
history of commands and faults, as long as no file serves twice (`Session.mirrors_after`). Nothing
is asked of the pointer bytes, and nothing of the outcome of any command.

The invariant is `Session.Faithful`. That an edit keeps it, however it ends, is
`Desk.Ended.mirrors`: each record is put in its place in the session when the card has taken it,
before the next request can fail.
-/

namespace UsimPhonebook.Session

/-- What is held of a block is on its files. -/
def Mirrored : BlockProperty := fun table _ files b => b.Mirrors table files

theorem loads_mirrored : Loads (fun _ => True) Mirrored where
  keeps _ _ _ _ := trivial
  empty table _ files := BlockState.mirrors_empty table files
  invalidate _ _ _ _ mirrors := mirrors.invalidate
  load table refs share d _ mirrors := by
    rcases Desk.load_cases mirrors share with
      ⟨e, d', failed, block, -, -⟩ | ⟨b, es, d', ok, block, -, joined, -, -, -⟩
    · rw [failed]
      show d'.block.Mirrors table _
      rw [block]
      exact mirrors
    · rw [ok]
      show d'.block.Mirrors table _
      rw [block]
      exact joined.join

/-- No file of the card serves twice, the session goes by its table, and what the session holds is
on the card. -/
structure Faithful (s : Session) : Prop where
  regular : Regular s.options.referenceFile s.card.files
  rooted : s.Rooted
  upholds : s.Upholds Mirrored

variable {s : Session}

/-! ## Every event -/

theorem faithful_start {card : Card} {options : Options}
    (regular : Regular options.referenceFile card.files) : (start card options).Faithful where
  regular := regular
  rooted := ⟨nofun, nofun, rfl⟩
  upholds := by
    intro table i refs b held
    cases held

theorem Faithful.continues (faithful : s.Faithful) {s' : Session} (h : s.Continues s') :
    s'.Faithful where
  regular := by
    rw [h.options, h.reads.files]
    exact faithful.regular
  rooted := h.rooted faithful.rooted
  upholds := h.upholds _ _ loads_mirrored trivial faithful.upholds

theorem Faithful.desk (faithful : s.Faithful) {position i offset : Nat} {table : Reference.Table}
    {refs : Reference.Block} {b : BlockState} (v : s.Visit position i offset table refs b) :
    Desk.Faithful table s.options.referenceFile i refs offset ⟨s.channel, b⟩ := by
  have mirrors : b.Mirrors table (refs.on s.card.files) := v.upheld faithful.upholds
  exact ⟨faithful.regular.separate table (faithful.rooted.table table v.held).1, v.named,
    faithful.regular.sized, mirrors, v.lt_addressCount mirrors⟩

theorem Faithful.withDesk (faithful : s.Faithful) {table : Reference.Table} {i : Nat}
    {refs : Reference.Block} {d : Desk} (held : s.table = some table)
    (named : table.block? i = some refs) {b : BlockState}
    (confined : Desk.Confined table s.options.referenceFile i ⟨s.channel, b⟩ d)
    (mirrors : d.block.Mirrors table (refs.on d.card.files)) : (s.withDesk i d).Faithful where
  regular := by
    refine ⟨confined.sized faithful.regular.sized, fun other rooted => ?_⟩
    exact faithful.regular.separate other (confined.rooted.symm.trans rooted)
  rooted := faithful.rooted.withDesk confined.rooted
  upholds := by
    refine .withDesk held named (fun j refs' b' named' here' ne => ?_) mirrors
    rw [confined.others j refs' named' ne]
    exact faithful.upholds table j refs' b' held named' here'

theorem Faithful.obey (faithful : s.Faithful) (command : Command) :
    (s.obey command).2.Faithful := by
  rcases s.continues_or_update command with continues | ⟨position, old, new, kind, rfl⟩
  · exact faithful.continues continues
  · rcases obey_update_cases s position old new kind with
      ⟨e, refused, -⟩ | ⟨i, offset, table, refs, b, outcome, d', v, ended, performed⟩
    · rw [refused]
      exact faithful
    · rw [performed]
      have desk := faithful.desk v
      exact faithful.withDesk v.held v.named (ended.confined desk.separate desk.named)
        (ended.mirrors desk)

theorem Faithful.meet (faithful : s.Faithful) (event : Event) : (s.meet event).Faithful := by
  cases event with
  | command command => exact faithful.obey command
  -- a fault that is pending is no part of any file
  | fault op file =>
    obtain ⟨regular, ⟨table, absent, blocks⟩, upholds⟩ := faithful
    exact ⟨regular, ⟨table, absent, blocks⟩, upholds⟩

theorem Faithful.after (faithful : s.Faithful) (events : List Event) : (s.after events).Faithful :=
  after_invariant (fun _ event faithful => faithful.meet event) faithful events

/-! ## Record for record -/

/-- What is held of one record for each entry is the first records of a file. -/
theorem exists_of_perEntry {refs : Reference.Block} {files : CardFiles} {tag : FileTag}
    {records : List Bytes} (read : (refs.on files).perEntry tag = some records) :
    ∃ id file, refs.file? tag = some id ∧ files.find? id = some file ∧ records =
      file.records.take (min file.records.length (max 1 (refs.on files).addressCount)) := by
  obtain ⟨file, found, rfl⟩ := Option.map_eq_some_iff.1 read
  obtain ⟨id, named, there⟩ := Option.bind_eq_some_iff.1 found
  refine ⟨id, file, named, there, ?_⟩
  rw [Nat.min_comm]
  exact List.take_eq_take_min

/-- What is held of the records of a kind is its file, or the first records of it. -/
theorem exists_of_fieldRecords {refs : Reference.Block} {files : CardFiles} {linkage : Linkage}
    {kind : FieldKind} {records : List Bytes} :
    (refs.on files).fieldRecords linkage kind = some records →
    ∃ id file, refs.file? (.ofKind kind) = some id ∧ files.find? id = some file ∧ records =
      match linkage with
      | .type1 =>
        file.records.take (min file.records.length (max 1 (refs.on files).addressCount))
      | .type2 _ => file.records := by
  intro read
  cases linkage with
  | type1 => exact exists_of_perEntry read
  | type2 position =>
    obtain ⟨file, found, rfl⟩ := Option.map_eq_some_iff.1 read
    obtain ⟨id, named, there⟩ := Option.bind_eq_some_iff.1 found
    exact ⟨id, file, named, there, rfl⟩

/-- After any history, with any faults and whatever the commands came to, every store that is held
of a block is the file of its kind on the card, record for record, and the index-pointer records
that are held are the first of their file: one for each address record, and one at least, of those
that there are. The same goes for the records of a kind that is linked by position. -/
theorem mirrors_after {card : Card} {options : Options}
    (regular : Regular options.referenceFile card.files) (events : List Event) (i : Nat)
    (b : BlockState) :
    let s := (start card options).after events
    s.blocks[i]? = some b →
    ∃ table refs, s.table = some table ∧ table.block? i = some refs ∧
      Reference.Table.on? s.card.files options.referenceFile = some table ∧
      (∀ kind store, b.store kind = some store → ∃ id file, refs.file? (.ofKind kind) = some id ∧
        s.card.file? id = some file ∧ store.records =
          match table.linkage kind with
          | .type1 => file.records.take
              (min file.records.length (max 1 (refs.on s.card.files).addressCount))
          | .type2 _ => file.records) ∧
      ∀ records, b.pointers = some records → ∃ id file, refs.file? .iap = some id ∧
        s.card.file? id = some file ∧ records = file.records.take
          (min file.records.length (max 1 (refs.on s.card.files).addressCount)) := by
  intro s here
  have faithful : s.Faithful := (faithful_start regular).after events
  have options_eq : s.options = options := options_after (start card options) events
  obtain ⟨inside, -⟩ := List.getElem?_eq_some_iff.1 here
  rw [faithful.rooted.blocks] at inside
  cases held : s.table with
  | none =>
    rw [held] at inside
    cases inside
  | some table =>
    rw [held] at inside
    have named : table.block? i = some table.blocks[i] := List.getElem?_eq_getElem inside
    have mirrors := faithful.upholds table i _ b held named here
    refine ⟨table, _, rfl, named, ?_, fun kind store stored => ?_, fun records kept => ?_⟩
    · rw [← options_eq]
      exact (faithful.rooted.table table held).1
    · exact exists_of_fieldRecords (mirrors.stored kind store stored).2
    · exact exists_of_perEntry (mirrors.pointers records kept).1

/-- A block of two entries whose kinds are both linked by their index-pointer records: that of the
first entry names the first of two email records. -/
def twinCard : Card where
  files := ⟨[
    (.ofNat 0x4F11, ⟨17, [Bytes.blank 17]⟩),
    (.ofNat 0x4F25, ⟨2, [[0x01, 0x00], [0x00, 0x00]]⟩),
    (.ofNat 0x4F30, ⟨20, [[0xA8, 0x08, 0xC0, 0x02, 0x4F, 0x3A, 0xC1, 0x02, 0x4F, 0x25,
      0xA9, 0x08, 0xCA, 0x02, 0x4F, 0x50, 0xC4, 0x02, 0x4F, 0x11]]⟩),
    (.ofNat 0x4F3A, ⟨14, [Bytes.blank 14, Bytes.blank 14]⟩),
    (.ofNat 0x4F50, ⟨6, [[0x61, 0xFF, 0xFF, 0xFF, 0xFF, 0x01], Bytes.blank 6]⟩)]⟩

/-- An additional number that is added, an email of which only the record could be written, and the
entries read again: what is held is on the card. -/
theorem mirrors_twinCard :
    let s := (start twinCard {}).after [.command .load, .command (.update 1 [] ['2'] .anr),
      .fault .write (.ofNat 0x4F25), .command (.update 1 [] ['b'] .email), .command .invalidate,
      .command .load]
    ∃ b table refs, s.blocks[0]? = some b ∧ s.table = some table ∧ table.block? 0 = some refs ∧
      (∃ id file, refs.file? .iap = some id ∧ s.card.file? id = some file ∧
        [[0x01, 0x00], [0x00, 0x01]] = file.records.take
          (min file.records.length (max 1 (refs.on s.card.files).addressCount))) ∧
      ∃ store id file, b.store .email = some store ∧ refs.file? .email = some id ∧
        s.card.file? id = some file ∧ store.records = file.records := by
  intro s
  have regular : Regular ({} : Options).referenceFile twinCard.files := by decide +kernel
  obtain ⟨b, here⟩ : ∃ b, s.blocks[0]? = some b := Option.isSome_iff_exists.1 (by decide +kernel)
  have kept : s.blocks[0]?.bind (·.pointers) = some [[0x01, 0x00], [0x00, 0x01]] := by
    decide +kernel
  have stored : (s.blocks[0]?.bind (·.store .email)).isSome := by decide +kernel
  have linked : s.table.map (·.linkage .email) = some (.type2 0) := by decide +kernel
  rw [here] at kept stored
  obtain ⟨store, stored⟩ := Option.isSome_iff_exists.1 stored
  obtain ⟨table, refs, held, named, -, stores, pointers⟩ := mirrors_after regular _ 0 b here
  have linked : table.linkage .email = .type2 0 := by
    rw [held] at linked
    exact Option.some.inj linked
  obtain ⟨id, file, called, found, records⟩ := stores .email store stored
  rw [linked] at records
  exact ⟨b, table, refs, here, held, named, pointers _ kept, store, id, file, stored, called, found,
    records⟩

end UsimPhonebook.Session
