import UsimPhonebook.Proofs.Session.Completeness

/-! # What a load gives

The entries of a phonebook can be said without a session (`Reference.Table.entries`): for each
address record of each block the entry that it reads as, with the digits of its extension records
and with the values that its links lead to (`BlockFiles.values`). A first load gives exactly this
list, from whatever files there are, and the slots of these values are those in use
(`Session.first_load`).

Nothing is asked of the card but that no request meets a fault. Files may be missing, too short, or
serve twice, and pointer bytes may lead anywhere.
-/

namespace UsimPhonebook

theorem Entry.extend_of_none {e : Entry} (h : e.extension = none) (records : List Bytes) :
    e.extend records = e := by
  have digits : extensionDigits records records.length e.extension = [] := by
    rw [h]
    cases records.length <;> rfl
  unfold extend
  rw [digits, List.append_nil]

/-! ## The phonebook on the card -/

namespace BlockFiles

/-- The values of a kind to which the entry at `offset` is linked: none, or one that is not
empty. -/
def values (files : BlockFiles) (linkage : Linkage) (kind : FieldKind) (offset : Nat) :
    List Text :=
  ((files.value? linkage kind offset).map (·.2)).toList

/-- The entry that an address record reads as, its number extended if there are extension
records. -/
def plainEntry (files : BlockFiles) (id : FileId) (offset : Nat) (record : Bytes) : Entry :=
  match files .ext1 with
  | some extensions => (Entry.decode id (offset + 1) record).extend extensions.records
  | none => Entry.decode id (offset + 1) record

/-- The entry of an address record. -/
def entry (files : BlockFiles) (table : Reference.Table) (id : FileId) (offset : Nat)
    (record : Bytes) : Entry :=
  ((files.plainEntry id offset record).setValues .email
    (files.values table.email .email offset)).setValues .anr (files.values table.anr .anr offset)

theorem values_entry (files : BlockFiles) (table : Reference.Table) (id : FileId) (offset : Nat)
    (record : Bytes) (kind : FieldKind) : (files.entry table id offset record).values kind =
      files.values (table.linkage kind) kind offset := by
  cases kind <;> rfl

theorem strip_entry (files : BlockFiles) (table : Reference.Table) (id : FileId) (offset : Nat)
    (record : Bytes) : (files.entry table id offset record).strip =
      (files.plainEntry id offset record).strip := by
  unfold entry
  rw [BlockState.strip_setValues, BlockState.strip_setValues]

/-- The entries of a block, one for each address record. -/
def entries (files : BlockFiles) (table : Reference.Table) (refs : Reference.Block) : List Entry :=
  match refs.file? .adn, files .adn with
  | some id, some file =>
    file.records.zipIdx.map fun (record, offset) => files.entry table id offset record
  | _, _ => []

end BlockFiles

/-- The entries of all blocks in order. -/
def Reference.Table.entries (table : Reference.Table) (files : CardFiles) : List Entry :=
  table.blocks.flatMap fun refs => (refs.on files).entries table refs

namespace BlockFiles

variable {files : BlockFiles} {refs : Reference.Block}

/-- Entries that are extended only if one of them asks for it are extended all the same. -/
theorem plainEntries_eq {id : FileId} {file : RecordFile} (named : refs.file? .adn = some id)
    (found : files .adn = some file) : files.plainEntries refs =
      some (file.records.zipIdx.map fun (record, offset) => files.plainEntry id offset record) := by
  unfold plainEntries plainEntry Desk.decodeEntries
  rw [named, found]
  dsimp only
  cases there : files .ext1 with
  | none => split <;> simp_all
  | some extensions =>
    cases asked : (file.records.zipIdx.map fun (record, index) =>
        Entry.decode id (index + 1) record).any (·.extension.isSome) with
    | true => simp only [List.map_map, Function.comp_def]
    | false =>
      dsimp only
      rw [List.any_eq_false] at asked
      refine congrArg some (List.map_congr_left fun item member => ?_)
      have unasked := asked _ (List.mem_map_of_mem member)
      rw [Entry.extend_of_none (by simpa using unasked)]

/-- An entry is linked to a value only where the records of the kind can be read. -/
theorem readable_of_value? {linkage : Linkage} {kind : FieldKind} {offset : Nat}
    {found : Nat × Text} (h : files.value? linkage kind offset = some found) :
    files.Readable linkage kind := by
  obtain ⟨index, text⟩ := found
  have linked := linkedSlot?_of_value? h
  have stored : (files.stored? kind index).isSome := by
    unfold value? at h
    rw [linked] at h
    obtain ⟨text', stored, -⟩ := Option.map_eq_some_iff.1 h
    rw [stored]
    rfl
  refine readable_of_record offset ?_ fun position pointed => ?_
  · unfold stored? at stored
    cases there : files (.ofKind kind) with
    | some file => rfl
    | none =>
      rw [there] at stored
      cases stored
  · subst pointed
    obtain ⟨slot, named, -⟩ := Option.map_eq_some_iff.1 linked
    obtain ⟨iap, there, named⟩ := Option.bind_eq_some_iff.1 named
    obtain ⟨record, at', -⟩ := Option.bind_eq_some_iff.1 named
    exact ⟨iap, record, there, at'⟩

end BlockFiles

/-! ## What is held is the phonebook on the card -/

/-- Where the records of a kind are held if they can be read, entries that are joined have the
values of the card. -/
theorem BlockState.Joined.values_eq {b : BlockState} {linkage : Linkage} {kind : FieldKind}
    {files : BlockFiles} (h : b.Joined linkage kind files)
    (full : files.Readable linkage kind → (b.store kind).isSome) {es : List Entry}
    (loaded : b.entries = some es) {offset : Nat} {e : Entry} (here : es[offset]? = some e) :
    e.values kind = files.values linkage kind offset := by
  rw [h.values es offset e loaded here]
  unfold BlockFiles.values
  split
  · rfl
  · next unheld =>
    cases value : files.value? linkage kind offset with
    | none => rfl
    | some found => exact absurd (full (BlockFiles.readable_of_value? value)) unheld

namespace Session

variable {s : Session} {table : Reference.Table} {refs : Reference.Block} {files : BlockFiles}
  {b : BlockState}

theorem Agreed.values_eq (h : Agreed table refs files b) {es : List Entry}
    (loaded : b.entries = some es) {offset : Nat} {e : Entry} (here : es[offset]? = some e)
    (kind : FieldKind) : e.values kind = files.values (table.linkage kind) kind offset :=
  (h.joined kind).values_eq (h.complete (by rw [loaded]; rfl) kind) loaded here

/-- The entries of a block that agrees with its files are those on the card. -/
theorem Agreed.entries_eq (h : Agreed table refs files b) {es : List Entry}
    (loaded : b.entries = some es) : es = files.entries table refs := by
  obtain ⟨base, plain, strip⟩ := h.plain es loaded
  cases named : refs.file? .adn with
  | none =>
    unfold BlockFiles.plainEntries at plain
    rw [named] at plain
    cases plain
  | some id =>
    obtain ⟨adn, length, -⟩ := h.mirrors.entries es loaded
    obtain ⟨file, found⟩ := Option.isSome_iff_exists.1 adn
    rw [BlockFiles.plainEntries_eq named found] at plain
    cases plain
    unfold BlockFiles.addressCount at length
    rw [found] at length
    unfold BlockFiles.entries
    rw [named, found]
    dsimp only
    apply List.ext_getElem
    · rw [List.length_map, List.length_zipIdx, length]
    intro offset inside inside'
    have here : es[offset]? = some es[offset] := List.getElem?_eq_getElem inside
    rw [List.getElem_map, List.getElem_zipIdx, Nat.zero_add]
    refine Entry.ext_values ?_ fun kind => ?_
    · have same := congrArg (·[offset]?) strip
      simp only [List.getElem?_map, here, List.getElem?_zipIdx, Option.map_some, Nat.zero_add,
        List.getElem?_eq_getElem (length ▸ inside), Option.some.injEq] at same
      rw [BlockFiles.strip_entry, same]
    · rw [h.values_eq loaded here, BlockFiles.values_entry]

theorem Loaded.entries_of_block (h : s.Loaded) {i : Nat} (held : s.table = some table)
    (named : table.block? i = some refs) (here : s.blocks[i]? = some b) :
    b.entries.getD [] = (refs.on s.card.files).entries table refs := by
  have agreed := h.synced.agreed table i refs b held named here
  cases loaded : b.entries with
  | some es => exact agreed.entries_eq loaded
  | none =>
    -- only a block without address records is not loaded
    cases adn : (refs.on s.card.files) .adn with
    | some file =>
      have read := h.loaded table i refs b held named here (by rw [adn]; rfl)
      rw [loaded] at read
      cases read
    | none =>
      unfold BlockFiles.entries
      rw [adn]
      cases refs.file? .adn <;> rfl

theorem Loaded.map_entries (h : s.Loaded) (held : s.table = some table) :
    s.blocks.map (fun b => b.entries.getD []) =
      table.blocks.map fun refs => (refs.on s.card.files).entries table refs := by
  have length : s.blocks.length = table.blocks.length := by
    rw [h.synced.rooted.blocks, held]
    rfl
  apply List.ext_getElem
  · rw [List.length_map, List.length_map, length]
  intro i inside inside'
  rw [List.length_map] at inside inside'
  rw [List.getElem_map, List.getElem_map]
  exact h.entries_of_block held (List.getElem?_eq_getElem inside')
    (List.getElem?_eq_getElem inside)

theorem Loaded.entries_eq (h : s.Loaded) (held : s.table = some table) :
    s.entries = table.entries s.card.files := by
  unfold Session.entries Reference.Table.entries
  rw [List.flatMap_def, List.flatMap_def, h.map_entries held]

/-- Whatever block of a session is loaded holds the records of a kind if they can be read. -/
theorem Loaded.store_iff (h : s.Loaded) {i : Nat} (held : s.table = some table)
    (named : table.block? i = some refs) (here : s.blocks[i]? = some b) (kind : FieldKind) :
    (b.store kind).isSome ↔ (refs.on s.card.files .adn).isSome ∧
      (refs.on s.card.files).Readable (table.linkage kind) kind := by
  have agreed := h.synced.agreed table i refs b held named here
  constructor
  · intro stored
    obtain ⟨store, kept⟩ := Option.isSome_iff_exists.1 stored
    exact ⟨(agreed.mirrors.stored kind store kept).1, agreed.readable stored⟩
  · rintro ⟨adn, readable⟩
    exact agreed.complete (h.loaded table i refs b held named here adn) kind readable

/-- In use are the slots of the values to which entries are linked, and no others. -/
theorem Loaded.used_iff (h : s.Loaded) {i : Nat} (held : s.table = some table)
    (named : table.block? i = some refs) (here : s.blocks[i]? = some b) {kind : FieldKind}
    {store : FieldStore} (stored : b.store kind = some store) {index : Nat} {slot : FieldSlot}
    (there : store.slots[index]? = some slot) : slot.used = true ↔
      ∃ offset text, offset < (refs.on s.card.files).addressCount ∧
        (refs.on s.card.files).value? (table.linkage kind) kind offset = some (index, text) := by
  have agreed := h.synced.agreed table i refs b held named here
  obtain ⟨adn, -⟩ := (h.store_iff held named here kind).1 (by rw [stored]; rfl)
  obtain ⟨es, loaded⟩ := Option.isSome_iff_exists.1 (h.loaded table i refs b held named here adn)
  rw [(agreed.joined kind).flags es store index slot loaded stored there,
    (agreed.mirrors.entries es loaded).2.1]

/-- A first load on a card without pending faults, whose reference file has a record, gives the
entries that are on the card. It holds the records of each kind that can be read, and in use are
the slots of the values to which entries are linked. -/
theorem first_load {card : Card} (calm : card.faults = []) (options : Options) {file : RecordFile}
    (found : card.file? options.referenceFile = some file) (described : file.records ≠ []) :
    let table := Reference.Table.parse file.records
    let s := (load.perform (start card options)).2
    (load.perform (start card options)).1 = .ok (table.entries card.files) ∧
    ∀ i refs, table.block? i = some refs → ∃ b, s.blocks[i]? = some b ∧ ∀ kind,
      ((b.store kind).isSome ↔ (refs.on card.files .adn).isSome ∧
        (refs.on card.files).Readable (table.linkage kind) kind) ∧
      ∀ store index slot, b.store kind = some store → store.slots[index]? = some slot →
        (slot.used = true ↔ ∃ offset text, offset < (refs.on card.files).addressCount ∧
          (refs.on card.files).value? (table.linkage kind) kind offset = some (index, text)) := by
  intro table s
  have begun : (start card options).Synced := synced_start calm options
  have full : s.Loaded := begun.loaded_load
  have continues := continues_load (start card options)
  have files : s.card.files = card.files := continues.reads.files
  have rooted : Reference.Table.on? card.files options.referenceFile = some table := by
    have found : card.files.find? options.referenceFile = some file := found
    unfold Reference.Table.on?
    rw [found]
    rfl
  have some : table.blocks ≠ [] := by
    intro none
    apply described
    apply List.eq_nil_of_length_eq_zero
    rw [← Reference.Table.length_blocks_parse, none]
    rfl
  have held : s.table = .some table := by
    refine full.table table ?_ some
    rw [files, continues.options]
    exact rooted
  constructor
  · have entries := full.entries_eq held
    rw [files] at entries
    rw [← entries]
    obtain ⟨outcome, s₁, done, -, -, complete⟩ := loadTable_cases (start card options)
    have outcome_eq := complete begun.rooted calm table rooted some
    show (load.perform (start card options)).1 = .ok (load.perform (start card options)).2.entries
    rw [perform_load, done, outcome_eq]
  · intro i refs named
    have inside : i < s.blocks.length := by
      rw [full.synced.rooted.blocks, held]
      exact (List.getElem?_eq_some_iff.1 named).1
    have here : s.blocks[i]? = .some s.blocks[i] := List.getElem?_eq_getElem inside
    refine ⟨_, here, fun kind => ⟨?_, fun store index slot stored there => ?_⟩⟩
    · rw [← files]
      exact full.store_iff held named here kind
    · rw [← files]
      exact full.used_iff held named here stored there

/-- Two blocks, of which the second names a file that is not there. In the first one the pointer
byte of the second entry leads past the last email record, and the third entry has no pointer
byte. -/
def looseCard : Card where
  files := ⟨[
    (.ofNat 0x4F25, ⟨1, [[0x02], [0x05]]⟩),
    (.ofNat 0x4F30, ⟨16, [[0xA8, 0x08, 0xC0, 0x02, 0x4F, 0x3A, 0xC1, 0x02, 0x4F, 0x25,
      0xA9, 0x04, 0xCA, 0x02, 0x4F, 0x50], [0xA8, 0x04, 0xC0, 0x02, 0x4F, 0x3B]]⟩),
    (.ofNat 0x4F3A, ⟨15, [0x41 :: Bytes.blank 14, 0x42 :: Bytes.blank 14, 0x43 :: Bytes.blank 14]⟩),
    (.ofNat 0x4F50, ⟨6, [Bytes.blank 6, [0x61, 0xFF, 0xFF, 0xFF, 0xFF, 0x01]]⟩)]⟩

/-- Of the three entries the first has a value, and its slot is the one in use. -/
theorem first_load_looseCard :
    let s := (load.perform (start looseCard { sharePointers := false })).2
    (∃ entries, (load.perform (start looseCard { sharePointers := false })).1 = .ok entries ∧
      entries.map (fun e => (e.alpha, e.recordNumber, e.emails)) =
        [(['A'], 1, [['a']]), (['B'], 2, []), (['C'], 3, [])]) ∧
    ∃ b, s.blocks[0]? = some b ∧ ∀ store index slot, b.store .email = some store →
      store.slots[index]? = some slot → slot.used = true → index = 1 := by
  intro s
  have calm : looseCard.faults = [] := rfl
  have found : looseCard.file? (.ofNat 0x4F30) = some ⟨16, [[0xA8, 0x08, 0xC0, 0x02, 0x4F, 0x3A,
    0xC1, 0x02, 0x4F, 0x25, 0xA9, 0x04, 0xCA, 0x02, 0x4F, 0x50],
    [0xA8, 0x04, 0xC0, 0x02, 0x4F, 0x3B]]⟩ := rfl
  obtain ⟨entries, blocks⟩ := first_load calm { sharePointers := false } found nofun
  refine ⟨⟨_, entries, by decide +kernel⟩, ?_⟩
  obtain ⟨b, here, kinds⟩ := blocks 0 _ rfl
  refine ⟨b, here, fun store index slot stored there used => ?_⟩
  obtain ⟨offset, text, inside, value⟩ := ((kinds .email).2 store index slot stored there).1 used
  have inside : offset < 3 := Nat.lt_of_lt_of_eq inside (by decide +kernel)
  rcases offset with _ | _ | _ | offset
  · cases value.symm.trans (show _ = some (1, ['a']) by decide +kernel)
    rfl
  · cases value.symm.trans (show _ = none by decide +kernel)
  · cases value.symm.trans (show _ = none by decide +kernel)
  · omega

end Session

end UsimPhonebook
