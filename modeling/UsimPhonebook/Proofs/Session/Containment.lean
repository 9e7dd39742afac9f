import UsimPhonebook.Proofs.Session.Lookup
import UsimPhonebook.Proofs.Session.Mirroring
import UsimPhonebook.Proofs.Session.Turns
import UsimPhonebook.Proofs.Session.Undisturbed
import Mathlib.Data.List.Forall2

/-! # What a load with failures leaves

A request that fails costs what it was to read, and no more: the entries of the block, the digits of
extension records, or the values of one kind in one block (`BlockState.Remains`). What is read next
is read as if nothing had failed. When no fault strikes it, a load that follows an `invalidate`
gives what the first load of another session gives, whatever failed before
(`Session.load_contained`).

That a block keeps nothing wrong is an invariant that asks nothing about faults (`Session.Partly`).
That work without failures goes as without faults is `Session.Undisturbed`.
-/

namespace UsimPhonebook

/-! ## Address records -/

namespace Desk

variable {refs : Reference.Block} {table : Reference.Table} {share : Bool} {d d' : Desk}

/-- Numbers are extended by all extension records, or not at all. -/
theorem extendEntries_ends (refs : Reference.Block) (es : List Entry) (d : Desk) :
    ∃ es' d', (extendEntries refs es).perform d = (.ok es', d') ∧ d'.block = d.block ∧
      (es' = es ∨ ∃ file, refs.on d.card.files .ext1 = some file ∧
        es' = es.map (·.extend file.records)) := by
  unfold extendEntries
  cases asked : extensionFile? refs es with
  | none => exact ⟨es, d, rfl, rfl, .inl rfl⟩
  | some id =>
    have named := named_of_extensionFile? asked
    simp only [Action.perform_bind, Action.perform_attempt, perform_readAll]
    rcases read_cases d (.readAll id) nofun with
      ⟨e, d', failed, block, -⟩ | ⟨file, records, d', ok, block, -, found, granted⟩
    · rw [failed]
      exact ⟨es, d', rfl, block, .inl rfl⟩
    · rw [ok]
      cases granted
      exact ⟨_, d', rfl, block, .inr ⟨file, on_eq_some named found, rfl⟩⟩

/-- The entries that are read are those of the address records, each with the digits of its
extension records or without them. -/
theorem decoded_of_loadEntries (ok : (loadEntries refs).perform d = (.ok (), d')) :
    ∃ id file es, refs.file? .adn = some id ∧ refs.on d.card.files .adn = some file ∧
      d'.block.entries = some es ∧ es.length = file.records.length ∧
      ∀ (offset : Nat) (e : Entry), es[offset]? = some e →
        ∃ record, file.records[offset]? = some record ∧
          (e = Entry.decode id (offset + 1) record ∨
            e = (refs.on d.card.files).plainEntry id offset record) := by
  unfold loadEntries at ok
  cases named : refs.file? .adn with
  | none =>
    simp only [Action.perform_bind, Action.perform_lift, fileOf, named] at ok
    cases ok
  | some id =>
    simp only [Action.perform_bind, Action.perform_lift, fileOf, named, perform_readAll] at ok
    rcases read_cases d (.readAll id) (fun h => by cases h) with
      ⟨e, d₁, failed, -⟩ | ⟨file, records, d₁, read, -, reads, found, granted⟩
    · rw [failed] at ok
      cases ok
    · rw [read] at ok
      cases granted
      obtain ⟨es, d₂, extended, -, extension⟩ :=
        extendEntries_ends refs (decodeEntries id file.records) d₁
      dsimp only at ok
      rw [extended] at ok
      cases ok
      have decoded (offset : Nat) : (decodeEntries id file.records)[offset]? =
          file.records[offset]?.map (Entry.decode id (offset + 1)) := by
        unfold decodeEntries
        rw [List.getElem?_map, List.getElem?_zipIdx, Option.map_map, Nat.zero_add]
        rfl
      refine ⟨id, file, es, rfl, on_eq_some named found, rfl, ?_, fun offset e here => ?_⟩
      · rcases extension with rfl | ⟨extensions, -, rfl⟩
        · exact length_decodeEntries id file.records
        · rw [List.length_map, length_decodeEntries]
      · rcases extension with rfl | ⟨extensions, there, rfl⟩
        · rw [decoded] at here
          obtain ⟨record, at', rfl⟩ := Option.map_eq_some_iff.1 here
          exact ⟨record, at', .inl rfl⟩
        · rw [List.getElem?_map, decoded, Option.map_map] at here
          obtain ⟨record, at', rfl⟩ := Option.map_eq_some_iff.1 here
          refine ⟨record, at', .inr ?_⟩
          rw [reads.files] at there
          unfold BlockFiles.plainEntry
          rw [there]
          rfl

theorem decoded_of_load (ok : (load refs table share).perform d = (.ok (), d')) :
    ∃ id file es, refs.file? .adn = some id ∧ refs.on d.card.files .adn = some file ∧
      d'.block.entries = some es ∧ es.length = file.records.length ∧
      ∀ (offset : Nat) (e : Entry), es[offset]? = some e →
        ∃ record, file.records[offset]? = some record ∧
          (e.strip = (Entry.decode id (offset + 1) record).strip ∨
            e.strip = ((refs.on d.card.files).plainEntry id offset record).strip) := by
  rw [perform_load] at ok
  rcases read : (loadEntries refs).perform d with ⟨e | u, d₁⟩
  · rw [read] at ok
    cases ok
  · rw [read] at ok
    cases ok
    obtain ⟨id, file, es, named, found, loaded, length, decoded⟩ := decoded_of_loadEntries read
    have kept : (complete refs table share .anr (atKind refs table share d₁ .anr)).block.entries =
        some es := by
      rw [entries_complete, atKind, entries_complete, loaded]
    obtain ⟨es', loaded', same⟩ := BlockState.strip_join kept table
    have lengths := congrArg List.length same
    rw [List.length_map, List.length_map] at lengths
    refine ⟨id, file, es', named, found, loaded', lengths.trans length, fun offset e' here => ?_⟩
    have stripped := congrArg (·[offset]?) same
    simp only [List.getElem?_map, here, Option.map_some] at stripped
    obtain ⟨e, there, strip⟩ := Option.map_eq_some_iff.1 stripped.symm
    obtain ⟨record, at', entry⟩ := decoded offset e there
    rw [← strip]
    exact ⟨record, at', entry.imp (congrArg Entry.strip) (congrArg Entry.strip)⟩

/-! ## Fields -/

/-- The desk with a card on which no fault is pending. -/
def calmed (d : Desk) : Desk :=
  { d with channel := { d.channel with card := { d.card with faults := [] } } }

/-- Where no request of its own failed, the records of a kind are held if they can be read. -/
theorem held_complete (mirrors : d.block.Mirrors table (refs.on d.card.files))
    (loaded : d.block.entries.isSome) {kind : FieldKind}
    (unfailing : d.card.Unfailing (complete refs table share kind d).card)
    (readable : (refs.on d.card.files).Readable (table.linkage kind) kind) :
    ((complete refs table share kind d).block.store kind).isSome := by
  have alike : d.Like d.calmed := ⟨rfl, rfl, rfl⟩
  obtain ⟨-, same, -⟩ := (congruence_like.completeField refs table share kind).like _ _ alike
    ((tells_completeField kind d).faults unfailing)
  obtain ⟨d', done, -, held⟩ := completeField_cases (d := d.calmed) mirrors loaded share kind
  rw [done] at same
  have same : d'.block = (complete refs table share kind d).block := same
  rw [← same]
  exact held rfl readable

theorem held_load (mirrors : d.block.Mirrors table (refs.on d.card.files))
    (ok : (load refs table share).perform d = (.ok (), d')) {kind : FieldKind}
    (unfailing : let before := atKind refs table share ((loadEntries refs).perform d).2 kind
      before.card.Unfailing (complete refs table share kind before).card)
    (readable : (refs.on d.card.files).Readable (table.linkage kind) kind) :
    (d'.block.store kind).isSome := by
  rw [perform_load] at ok
  rcases loadEntries_cases refs d with
    ⟨e, d₁, failed, -⟩ | ⟨es, d₁, done, block, reads, adn, length, -⟩
  · rw [failed] at ok
    cases ok
  · rw [done] at ok unfailing
    cases ok
    rw [BlockState.isSome_store_join]
    have mirrors₁ : d₁.block.Mirrors table (refs.on d₁.card.files) := by
      rw [reads.files, block]
      exact mirrors.withEntries adn length
    have loaded₁ : d₁.block.entries.isSome := by rw [block]; rfl
    obtain ⟨d₂, done₂, email, -⟩ := completeField_cases mirrors₁ loaded₁ share .email
    have after₂ : complete refs table share .email d₁ = d₂ := congrArg Prod.snd done₂
    have mirrors₂ : d₂.block.Mirrors table (refs.on d₂.card.files) := by
      rw [email.reads.files]
      exact email.mirrors
    have loaded₂ : d₂.block.entries.isSome := by rw [email.entries]; exact loaded₁
    rw [← reads.files] at readable
    cases kind with
    | email =>
      have held : (d₂.block.store .email).isSome :=
        after₂ ▸ held_complete mirrors₁ loaded₁ unfailing readable
      obtain ⟨d₃, done₃, anr, -⟩ := completeField_cases mirrors₂ loaded₂ share .anr
      have after₃ : complete refs table share .anr d₂ = d₃ := congrArg Prod.snd done₃
      show ((complete refs table share .anr (complete refs table share .email d₁)).block.store
        .email).isSome
      rw [after₂, after₃]
      exact anr.kept .email held
    | anr =>
      have unfailing : (complete refs table share .email d₁).card.Unfailing
          (complete refs table share .anr (complete refs table share .email d₁)).card := unfailing
      rw [← email.reads.files] at readable
      show ((complete refs table share .anr (complete refs table share .email d₁)).block.store
        .anr).isSome
      rw [after₂] at unfailing ⊢
      exact held_complete mirrors₂ loaded₂ unfailing readable

end Desk

/-! ## What is left of a block -/

/-- An entry that was read, and the same entry as it is read without any failure: it may lack the
digits of its extension records. -/
structure Entry.Survives (card : Card) (e e' : Entry) : Prop where
  file : e.file = e'.file
  recordNumber : e.recordNumber = e'.recordNumber
  alpha : e.alpha = e'.alpha
  number : e.number = e'.number ∨ ∃ record, card.record? e.file e.recordNumber = some record ∧
    e.number = (Entry.decode e.file e.recordNumber record).number

theorem Entry.eq_of_strip {e e' : Entry} (h : e.strip = e'.strip) : e.file = e'.file ∧
    e.recordNumber = e'.recordNumber ∧ e.alpha = e'.alpha ∧ e.number = e'.number :=
  ⟨(congrArg Entry.file h :), (congrArg Entry.recordNumber h :), (congrArg Entry.alpha h :),
    (congrArg Entry.number h :)⟩

theorem Entry.decode_frame (id : FileId) (number : Nat) (record : Bytes) :
    (Entry.decode id number record).file = id ∧
      (Entry.decode id number record).recordNumber = number := by
  unfold Entry.decode
  split <;> exact ⟨rfl, rfl⟩

/-- Extension records change the number of an entry alone. -/
theorem BlockFiles.plainEntry_frame (files : BlockFiles) (id : FileId) (offset : Nat)
    (record : Bytes) : (files.plainEntry id offset record).file = id ∧
      (files.plainEntry id offset record).recordNumber = offset + 1 ∧
      (files.plainEntry id offset record).alpha = (Entry.decode id (offset + 1) record).alpha := by
  have decoded := Entry.decode_frame id (offset + 1) record
  unfold plainEntry
  split <;> exact ⟨decoded.1, decoded.2, rfl⟩

/-- The entry of an address record survives with or without the digits of extension records. -/
theorem Entry.survives {card : Card} {files : BlockFiles} {id : FileId} {file : RecordFile}
    {offset : Nat} {record : Bytes} {e e' : Entry} (found : card.file? id = some file)
    (there : file.records[offset]? = some record)
    (strip : e.strip = (Entry.decode id (offset + 1) record).strip ∨
      e.strip = (files.plainEntry id offset record).strip)
    (strip' : e'.strip = (files.plainEntry id offset record).strip) : e.Survives card e' := by
  obtain ⟨file', number', alpha', digits'⟩ := eq_of_strip strip'
  obtain ⟨plainFile, plainNumber, plainAlpha⟩ := files.plainEntry_frame id offset record
  have onCard : card.record? id (offset + 1) = some record := by
    unfold Card.record?
    rw [found]
    exact there
  rcases strip with strip | strip
  · obtain ⟨file, number, alpha, digits⟩ := eq_of_strip strip
    rw [(decode_frame ..).1] at file
    rw [(decode_frame ..).2] at number
    refine ⟨?_, ?_, ?_, .inr ⟨record, ?_, ?_⟩⟩
    · rw [file, file', plainFile]
    · rw [number, number', plainNumber]
    · rw [alpha, alpha', plainAlpha]
    · rw [file, number, onCard]
    · rw [digits, file, number]
  · obtain ⟨file, number, alpha, digits⟩ := eq_of_strip strip
    exact ⟨file.trans file'.symm, number.trans number'.symm, alpha.trans alpha'.symm,
      .inl (digits.trans digits'.symm)⟩

def BlockState.valuesOf (b : BlockState) (kind : FieldKind) : List (List Text) :=
  (b.entries.getD []).map (·.values kind)

/-- What is left of a block that reads as `b'` without any failure: no entry, or all of them in
order; and of each kind all values, or none. -/
structure BlockState.Remains (card : Card) (b b' : BlockState) : Prop where
  entries : b.entries = none ∨ ∃ es es', b.entries = some es ∧ b'.entries = some es' ∧
    List.Forall₂ (Entry.Survives card) es es'
  values : ∀ kind, b.valuesOf kind = b'.valuesOf kind ∨
    ∀ e ∈ b.entries.getD [], e.values kind = []

/-- The event is no update: it is another command, or a fault. -/
def Event.OnlyReads : Event → Prop
  | .command (.update ..) => False
  | _ => True

namespace Session

/-- What is held of the block is on its files, entries have the values of a kind if its records are
held, and are the address records, with or without the digits of extension records. -/
structure Partly (table : Reference.Table) (refs : Reference.Block) (files : BlockFiles)
    (b : BlockState) : Prop where
  mirrors : b.Mirrors table files
  joined : ∀ kind, b.Joined (table.linkage kind) kind files
  plain : ∀ es, b.entries = some es → ∃ id file, refs.file? .adn = some id ∧
    files .adn = some file ∧ es.length = file.records.length ∧
    ∀ (offset : Nat) (e : Entry), es[offset]? = some e →
      ∃ record, file.records[offset]? = some record ∧
        (e.strip = (Entry.decode id (offset + 1) record).strip ∨
          e.strip = (files.plainEntry id offset record).strip)

theorem partly_of_not_loaded {table : Reference.Table} {refs : Reference.Block}
    {files : BlockFiles} {b : BlockState} (mirrors : b.Mirrors table files)
    (h : b.entries = none) : Partly table refs files b where
  mirrors := mirrors
  joined := (agreed_of_not_loaded mirrors h : Agreed table refs files b).joined
  plain es loaded := by
    rw [h] at loaded
    cases loaded

theorem loads_partly : Loads (fun _ => True) Partly where
  keeps _ _ _ _ := trivial
  empty table refs files := partly_of_not_loaded (BlockState.mirrors_empty table files) rfl
  invalidate table refs files b h := partly_of_not_loaded h.mirrors.invalidate rfl
  load table refs share d _ h := by
    rcases Desk.load_cases h.mirrors share with
      ⟨e, d', failed, block, -, -⟩ | ⟨b, -, d', ok, block, -, mirrors, -, -, -⟩
    · rw [failed]
      show Partly table refs _ d'.block
      rw [block]
      exact h
    · rw [ok]
      show Partly table refs _ d'.block
      refine ⟨by rw [block]; exact mirrors.join,
        fun kind => by rw [block]; exact BlockState.joined_join mirrors kind,
        fun es' loaded' => ?_⟩
      obtain ⟨id, file, es, named, found, loaded, length, decoded⟩ := Desk.decoded_of_load ok
      rw [loaded] at loaded'
      cases loaded'
      exact ⟨id, file, named, found, length, decoded⟩

variable {card : Card} {table : Reference.Table} {refs : Reference.Block} {b b' : BlockState}

theorem valuesOf_eq {kind : FieldKind} {es es' : List Entry} (loaded : b.entries = some es)
    (loaded' : b'.entries = some es') (length : es.length = es'.length)
    (values : ∀ (offset : Nat) (e e' : Entry), es[offset]? = some e → es'[offset]? = some e' →
      e.values kind = e'.values kind) : b.valuesOf kind = b'.valuesOf kind := by
  unfold BlockState.valuesOf
  rw [loaded, loaded']
  apply List.ext_getElem
  · simpa using length
  · intro offset inside inside'
    rw [List.getElem_map, List.getElem_map]
    rw [Option.getD_some, List.length_map] at inside inside'
    exact values offset _ _ (List.getElem?_eq_getElem inside) (List.getElem?_eq_getElem inside')

/-- A block of which part could be read is what is left of the whole block. -/
theorem Partly.remains (h : Partly table refs (refs.on card.files) b)
    (whole : Agreed table refs (refs.on card.files) b')
    (loaded' : (refs.on card.files .adn).isSome → b'.entries.isSome) : b.Remains card b' := by
  cases loaded : b.entries with
  | none =>
    refine ⟨.inl loaded, fun kind => .inr fun e member => ?_⟩
    rw [loaded] at member
    cases member
  | some es =>
    obtain ⟨id, file, named, found, length, plain⟩ := h.plain es loaded
    obtain ⟨es', loaded'⟩ := Option.isSome_iff_exists.1 (loaded' (by rw [found]; rfl))
    have all := whole.entries_eq loaded'
    unfold BlockFiles.entries at all
    rw [named, found] at all
    have length' : es'.length = file.records.length := by
      rw [all, List.length_map, List.length_zipIdx]
    refine ⟨.inr ⟨es, es', loaded, loaded', ?_⟩, fun kind => ?_⟩
    · rw [List.forall₂_iff_get]
      refine ⟨length.trans length'.symm, fun offset inside inside' => ?_⟩
      obtain ⟨record, at', strip⟩ := plain offset _ (List.getElem?_eq_getElem inside)
      have entry : es'[offset] = (refs.on card.files).entry table id offset record := by
        have there := congrArg (·[offset]?) all
        simp only [List.getElem?_map, List.getElem?_zipIdx, at', Option.map_some, Nat.zero_add,
          List.getElem?_eq_getElem inside'] at there
        exact Option.some.inj there
      obtain ⟨id', named', there⟩ := Option.bind_eq_some_iff.1 found
      rw [named] at named'
      cases named'
      exact Entry.survives there at' strip (by
        rw [List.get_eq_getElem, entry, BlockFiles.strip_entry])
    · by_cases held : (b.store kind).isSome
      · refine .inl (valuesOf_eq loaded loaded' (length.trans length'.symm) ?_)
        intro offset e e' here here'
        rw [(h.joined kind).values_eq (fun _ => held) loaded here,
          whole.values_eq loaded' here' kind]
      · refine .inr fun e member => ?_
        rw [loaded, Option.getD_some] at member
        obtain ⟨offset, here⟩ := List.getElem?_of_mem member
        rw [(h.joined kind).values es offset e loaded here, if_neg held]

/-! ## Between commands that only read -/

/-- After commands that only read, whatever fails, the card has the files that it had, the session
goes by its table, and what is held is on the card. -/
theorem after_reads (card : Card) (options : Options) {events : List Event}
    (reads : ∀ e ∈ events, e.OnlyReads) :
    let s := (start card options).after events
    s.Rooted ∧ s.Upholds Mirrored ∧ s.card.files = card.files ∧ s.options = options := by
  have kept (s : Session) (now : s.Rooted ∧ s.Upholds Mirrored ∧ s.card.files = card.files ∧
      s.options = options) : let s := s.after events
      s.Rooted ∧ s.Upholds Mirrored ∧ s.card.files = card.files ∧ s.options = options := by
    induction events generalizing s with
    | nil => exact now
    | cons event rest ih =>
      obtain ⟨first, others⟩ := List.forall_mem_cons.1 reads
      refine ih others (s.meet event) ?_
      obtain ⟨rooted, mirrored, files, options⟩ := now
      cases event with
      | fault op file =>
        obtain ⟨table, absent, blocks⟩ := rooted
        exact ⟨⟨table, absent, blocks⟩, mirrored, files, options⟩
      | command command =>
        rcases s.continues_or_update command with continues | ⟨position, old, new, kind, rfl⟩
        · exact ⟨continues.rooted rooted, continues.upholds _ _ loads_mirrored trivial mirrored,
            continues.reads.files.trans files, continues.options.trans options⟩
        · exact first.elim
  have empty : (start card options).Upholds Mirrored := by
    intro table i refs b held
    cases held
  exact kept _ ⟨⟨nofun, nofun, rfl⟩, empty, rfl, rfl⟩

/-! ## Recovery -/

/-- What reading the table gives on a card without faults. -/
def tableOn (files : CardFiles) (reference : FileId) : Except Error Reference.Table :=
  match (files.find? reference).map (·.records) with
  | none => .error (.transport (.fileNotFound reference))
  | some [] => .error .referenceAbsent
  | some records => .ok (.parse records)

theorem blocks_parse_eq_nil {records : List Bytes} :
    (Reference.Table.parse records).blocks = [] ↔ records = [] := by
  rw [← List.length_eq_zero_iff, Reference.Table.length_blocks_parse, List.length_eq_zero_iff]

/-- Whether the table is held, known to be empty, or read: the card decides. -/
theorem Synced.loadTable_eq {s : Session} (h : s.Synced) :
    (loadTable.perform s).1 = tableOn s.card.files s.options.referenceFile := by
  have on : Reference.Table.on? s.card.files s.options.referenceFile =
      (s.card.files.find? s.options.referenceFile).map fun file => .parse file.records := rfl
  unfold tableOn
  rw [perform_loadTable]
  cases absent : s.absent with
  | true =>
    obtain ⟨table, there, none⟩ := h.rooted.absent absent
    rw [on, Option.map_eq_some_iff] at there
    obtain ⟨file, found, rfl⟩ := there
    rw [found, Option.map_some, blocks_parse_eq_nil.1 none]
    rfl
  | false =>
    rw [if_neg Bool.false_ne_true]
    cases held : s.table with
    | some table =>
      obtain ⟨there, some⟩ := h.rooted.table table held
      rw [on, Option.map_eq_some_iff] at there
      obtain ⟨file, found, rfl⟩ := there
      rw [found, Option.map_some]
      cases records : file.records with
      | nil => exact absurd (blocks_parse_eq_nil.2 records) some
      | cons record rest => rfl
    | none =>
      have calm : Desk.Calm ⟨s.channel, {}⟩ (.readAll s.options.referenceFile) :=
        Desk.calm_of_faultless h.calm _
      unfold readTable
      rw [Action.perform_of]
      rcases done : s.channel.ask (.readAll s.options.referenceFile) with ⟨outcome, channel⟩
      cases found : s.card.files.find? s.options.referenceFile with
      | none =>
        have asked := Desk.ask_of_missing (.readAll s.options.referenceFile) calm found
        rw [Desk.ask, done] at asked
        have asked : outcome = _ := asked
        rw [asked]
        rfl
      | some file =>
        have asked := (Desk.ask_of_calm (.readAll s.options.referenceFile) calm found).1
        rw [Desk.ask, done] at asked
        have asked : outcome = .ok file.records := asked
        rw [asked, Option.map_some]
        cases file.records <;> rfl

/-- On the same card two sessions without pending faults get the same from a load. -/
theorem Synced.load_eq {s s' : Session} (h : s.Synced) (h' : s'.Synced)
    (options : s'.options.referenceFile = s.options.referenceFile)
    (files : s'.card.files = s.card.files) :
    (load.perform s).1 = (load.perform s').1 ∧
      (load.perform s).2.entries = (load.perform s').2.entries ∧
      ∀ kind block, (load.perform s).2.freeInBlock kind block =
        (load.perform s').2.freeInBlock kind block := by
  have continues := continues_load s
  have continues' := continues_load s'
  obtain ⟨entries, free⟩ := h.loaded_load.eq h'.loaded_load
    (by rw [continues.options, continues'.options, options])
    (by rw [continues.reads.files, continues'.reads.files, files])
  refine ⟨?_, entries, free⟩
  have table := h.loadTable_eq
  have table' := h'.loadTable_eq
  rw [options, files] at table'
  rw [perform_load, perform_load] at entries ⊢
  rcases done : loadTable.perform s with ⟨outcome, s₁⟩
  rcases done' : loadTable.perform s' with ⟨outcome', s₁'⟩
  rw [done] at table entries
  rw [done'] at table' entries
  have same : outcome' = outcome := table'.trans table.symm
  subst same
  cases outcome' with
  | error e => rfl
  | ok table => exact congrArg Except.ok entries

def calmed (s : Session) : Session := s.onCard fun card => { card with faults := [] }

/-- After commands that only read, and an `invalidate`, a load that no fault strikes gives what a
new session gets from a card without faults. -/
theorem recovers {options : Options} {events : List Event} (reads : ∀ e ∈ events, e.OnlyReads) :
    let s := ((start card options).after events).invalidate
    let again := load.perform s
    let fresh := load.perform (start { card with faults := [] } options)
    again.2.card.faults = s.card.faults →
    again.1 = fresh.1 ∧ again.2.entries = fresh.2.entries ∧
      ∀ kind block, again.2.freeInBlock kind block = fresh.2.freeInBlock kind block := by
  intro s again fresh struck
  have history : s = (start card options).after (events ++ [.command .invalidate]) := by
    unfold after
    rw [List.foldl_append]
    rfl
  have still : ∀ e ∈ events ++ [.command .invalidate], e.OnlyReads := by
    intro e member
    rcases List.mem_append.1 member with old | new
    · exact reads e old
    · rw [List.mem_singleton.1 new]
      trivial
  obtain ⟨rooted, mirrored, files, options_eq⟩ := after_reads card options still
  rw [← history] at rooted mirrored files options_eq
  obtain ⟨same, like⟩ := undisturbed_load.like s s.calmed ⟨rfl, rfl, rfl, rfl, rfl, rfl⟩ struck
  have synced : s.calmed.Synced := by
    refine ⟨⟨rooted.table, rooted.absent, rooted.blocks⟩, rfl, ?_⟩
    intro table i refs b held named here
    refine agreed_of_not_loaded (mirrored table i refs b held named here) ?_
    have here : (((start card options).after events).blocks.map BlockState.invalidate)[i]? =
        some b := here
    rw [List.getElem?_map] at here
    obtain ⟨old, -, rfl⟩ := Option.map_eq_some_iff.1 here
    rfl
  have calm : (start { card with faults := [] } options).Synced := synced_start rfl options
  obtain ⟨outcome, entries, free⟩ := synced.load_eq calm
    (congrArg Options.referenceFile options_eq.symm) files.symm
  refine ⟨same.symm.trans outcome, ?_, fun kind block => ?_⟩
  · rw [← entries]
    unfold Session.entries
    rw [like.blocks]
  · rw [← free]
    unfold freeInBlock
    rw [like.blocks]

/-! ## Containment -/

/-- When a first load came to block `i`, no request failed that was made for a kind alone. -/
def Spared (s : Session) (table : Reference.Table) (refs : Reference.Block) (i : Nat)
    (kind : FieldKind) : Prop :=
  let read := ((Desk.loadEntries refs).perform (s.deskAt i)).2
  let before := Desk.atKind refs table s.options.sharePointers read kind
  before.card.Unfailing (Desk.complete refs table s.options.sharePointers kind before).card

/-- A table that can be read in spite of faults is the one that is read without. -/
theorem loadTable_quiet {card : Card} {options : Options} {table : Reference.Table}
    (ok : (loadTable.perform (start card options)).1 = .ok table) :
    (loadTable.perform (start { card with faults := [] } options)).1 = .ok table := by
  obtain ⟨outcome, s₁, done, continues, held, -⟩ := loadTable_cases (start card options)
  rw [done] at ok
  cases ok
  have rooted : s₁.Rooted := continues.rooted ⟨nofun, nofun, rfl⟩
  obtain ⟨there, some⟩ := rooted.table table (held table rfl)
  rw [continues.reads.files, continues.options] at there
  obtain ⟨outcome', s₁', done', -, -, complete⟩ :=
    loadTable_cases (start { card with faults := [] } options)
  rw [done']
  exact complete ⟨nofun, nofun, rfl⟩ rfl table there some

section

variable {card : Card} {options : Options} {table : Reference.Table} {refs : Reference.Block}
  {i : Nat}

theorem block_unfailing
    (ok : (loadTable.perform (start card options)).1 = .ok table)
    (named : table.block? i = some refs)
    (unfailing : ((start card options).turn i).card.Unfailing
      ((start card options).turn (i + 1)).card) :
    (load.perform (start card options)).2.blocks[i]? =
      (load.perform (start { card with faults := [] } options)).2.blocks[i]? := by
  obtain ⟨end', here⟩ := blocks_load ok named
  obtain ⟨-, here'⟩ := blocks_load (loadTable_quiet ok) named
  have reads := (continues_turn (start card options) i).reads
  have reads' := (continues_turn (start { card with faults := [] } options) i).reads
  have alike : Desk.Like ((start card options).deskAt i)
      ((start { card with faults := [] } options).deskAt i) :=
    ⟨rfl, reads'.files.trans reads.files.symm, reads'.faultless rfl⟩
  rw [end'] at unfailing
  obtain ⟨-, block, -⟩ := (Desk.congruence_like.load refs table options.sharePointers).like
    _ _ alike ((Desk.tells_load _).faults unfailing)
  rw [here, here', block]

/-- A kind all of whose own requests succeed is held if it can be read. -/
theorem store_spared
    (ok : (loadTable.perform (start card options)).1 = .ok table)
    (named : table.block? i = some refs) {b : BlockState}
    (here : (load.perform (start card options)).2.blocks[i]? = some b)
    (loaded : b.entries.isSome) {kind : FieldKind}
    (spared : (start card options).Spared table refs i kind)
    (readable : (refs.on card.files).Readable (table.linkage kind) kind) :
    (b.store kind).isSome := by
  obtain ⟨-, same⟩ := blocks_load ok named
  rw [here] at same
  cases same
  have reads := (continues_turn (start card options) i).reads
  have files : ((start card options).deskAt i).card.files = card.files := reads.files
  rcases Desk.load_ends refs table options.sharePointers ((start card options).deskAt i) with
    ⟨e, d', failed, block⟩ | ⟨b, es, d', done, -, -⟩
  · rw [failed] at loaded
    have loaded : d'.block.entries.isSome := loaded
    rw [block] at loaded
    cases loaded
  · rw [done]
    rw [← files] at readable
    exact Desk.held_load (BlockState.mirrors_empty table _) done spared readable

end

/-- Faults that are pending when a new session loads cost what their requests were to read, and no
more, and what they cost can be had again.

If the load succeeds, then it comes to the same blocks as without faults. Each of them lacks all
entries or none, and of a kind all values or none (`BlockState.Remains`). A block is whole if none
of its requests failed, and in a block that is loaded a kind is whole if none of its own did.

After any history of commands that only read, with any faults, an `invalidate` and a load that no
fault strikes give what a new session gets from a card without faults. -/
theorem load_contained (card : Card) (options : Options) :
    (∀ es, (load.perform (start card options)).1 = .ok es →
      let s := start card options
      let quiet := start { card with faults := [] } options
      let now := (load.perform s).2
      let whole := (load.perform quiet).2
      es = now.entries ∧ (load.perform quiet).1 = .ok whole.entries ∧
      ∃ table, now.table = some table ∧ whole.table = some table ∧
        now.blocks.length = table.blocks.length ∧ whole.blocks.length = table.blocks.length ∧
        ∀ i refs, table.block? i = some refs → ∃ b b', now.blocks[i]? = some b ∧
          whole.blocks[i]? = some b' ∧ b.Remains card b' ∧
          ((s.turn i).card.Unfailing (s.turn (i + 1)).card → b = b') ∧
          ∀ kind, b.entries.isSome → s.Spared table refs i kind →
            b.valuesOf kind = b'.valuesOf kind) ∧
    ∀ events : List Event, (∀ e ∈ events, e.OnlyReads) →
      let s := ((start card options).after events).invalidate
      let again := load.perform s
      let fresh := load.perform (start { card with faults := [] } options)
      again.2.card.faults = s.card.faults →
      again.1 = fresh.1 ∧ again.2.entries = fresh.2.entries ∧
        ∀ kind block, again.2.freeInBlock kind block = fresh.2.freeInBlock kind block := by
  refine ⟨fun es loaded => ?_, fun events reads => recovers reads⟩
  intro s quiet now whole
  obtain ⟨table, ok⟩ : ∃ table, (loadTable.perform s).1 = .ok table := table_of_load loaded
  have ok' : (loadTable.perform quiet).1 = .ok table := loadTable_quiet ok
  have load_eq := perform_load_of_table ok
  have load_eq' := perform_load_of_table ok'
  have continues : s.Continues now := continues_load s
  have files : now.card.files = card.files := continues.reads.files
  have partly : now.Upholds Partly :=
    continues.upholds _ _ loads_partly trivial (by intro table i refs b held; cases held)
  have full : whole.Loaded := (synced_start rfl options).loaded_load
  have files' : whole.card.files = card.files := (continues_load quiet).reads.files
  have held : now.table = some table := by
    show (load.perform s).2.table = _
    rw [load_eq]
    exact (tabled_turn (tabled_loadTable ok) _).table
  have held' : whole.table = some table := by
    show (load.perform quiet).2.table = _
    rw [load_eq']
    exact (tabled_turn (tabled_loadTable ok') _).table
  have count : now.blocks.length = table.blocks.length := by
    have shaped : now.Shaped := continues.shaped rfl
    rw [shaped, held]
    rfl
  have count' : whole.blocks.length = table.blocks.length := by
    have shaped : whole.Shaped := (continues_load quiet).shaped rfl
    rw [shaped, held']
    rfl
  refine ⟨?_, ?_, table, held, held', count, count', fun i refs named => ?_⟩
  · rw [load_eq] at loaded
    cases loaded
    show _ = (load.perform s).2.entries
    rw [load_eq]
  · show (load.perform quiet).1 = .ok (load.perform quiet).2.entries
    rw [load_eq']
  · have inside : i < table.blocks.length := (List.getElem?_eq_some_iff.1 named).1
    obtain ⟨b, here⟩ : ∃ b, now.blocks[i]? = some b :=
      ⟨_, List.getElem?_eq_getElem (count ▸ inside)⟩
    obtain ⟨b', here'⟩ : ∃ b', whole.blocks[i]? = some b' :=
      ⟨_, List.getElem?_eq_getElem (count' ▸ inside)⟩
    have part := partly table i refs _ held named here
    have agreed := full.synced.agreed table i refs _ held' named here'
    have read := full.loaded table i refs _ held' named here'
    rw [files] at part
    rw [files'] at agreed read
    refine ⟨b, b', here, here', part.remains agreed read, fun unfailing => ?_,
      fun kind some spared => ?_⟩
    · have same := block_unfailing ok named unfailing
      have same : now.blocks[i]? = whole.blocks[i]? := same
      rw [here, here'] at same
      exact Option.some.inj same
    · obtain ⟨es, loaded⟩ := Option.isSome_iff_exists.1 some
      obtain ⟨id, file, -, found, length, -⟩ := part.plain es loaded
      obtain ⟨es', loaded'⟩ := Option.isSome_iff_exists.1 (read (by rw [found]; rfl))
      refine valuesOf_eq loaded loaded' ?_ fun offset e e' at' at'' => ?_
      · rw [(part.mirrors.entries es loaded).2.1, (agreed.mirrors.entries es' loaded').2.1]
      · rw [agreed.values_eq loaded' at'' kind]
        exact (part.joined kind).values_eq (store_spared ok named here some spared) loaded at'

/-- The email records cannot be read once. The block has its entries and no email, and after an
`invalidate` it has both. -/
theorem contained_looseCard :
    let card := { looseCard with faults := [(.readAll, .ofNat 0x4F50)] }
    let quiet := start { card with faults := [] } {}
    let now := (load.perform (start card {})).2
    let whole := (load.perform quiet).2
    (∃ b b', now.blocks[0]? = some b ∧ whole.blocks[0]? = some b' ∧ b.Remains card b' ∧
      b.valuesOf .email = [[], [], []] ∧ b'.valuesOf .email = [[['a']], [], []]) ∧
    (load.perform ((start card {}).after [.command .load]).invalidate).1 =
      (load.perform quiet).1 := by
  intro card quiet now whole
  obtain ⟨contained, recovered⟩ := load_contained card {}
  constructor
  · have ok : (load.perform (start card {})).1 = .ok now.entries := by decide +kernel
    obtain ⟨-, -, table, -, -, count, -, blocks⟩ := contained now.entries ok
    have inside : 0 < table.blocks.length := Nat.lt_of_lt_of_eq (by decide +kernel) count
    obtain ⟨b, b', here, here', remains, -⟩ := blocks 0 _ (List.getElem?_eq_getElem inside)
    have values : now.blocks[0]?.map (·.valuesOf .email) = some [[], [], []] := by decide +kernel
    have values' : whole.blocks[0]?.map (·.valuesOf .email) = some [[['a']], [], []] := by
      decide +kernel
    dsimp only [now, whole, quiet] at values values' ⊢
    rw [here] at values
    rw [here'] at values'
    exact ⟨b, b', here, here', remains, Option.some.inj values, Option.some.inj values'⟩
  · exact (recovered [.command .load] (by simp [Event.OnlyReads]) (by decide +kernel)).1

end Session

end UsimPhonebook
