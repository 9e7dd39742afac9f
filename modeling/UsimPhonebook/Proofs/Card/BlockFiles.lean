import UsimPhonebook.Card.File
import UsimPhonebook.Session.Block

/-! # The files of a block

What the card holds of one block of the phonebook, without a session: the file under each tag
(`Reference.Block.on`), how many address records there are (`BlockFiles.addressCount`), and which
slot an entry's index-pointer record names (`BlockFiles.slot?`).

`WellFormed` is what the card of a sound phonebook is like; `Regular` asks nothing of the pointer
bytes. Writing a record changes one file of one block (`on_replace_self`) and no other block
(`on_replace_of_ne`), provided that no file serves twice (`Reference.Table.Separate`).
-/

namespace UsimPhonebook

/-- The files of a card by identifier. -/
abbrev CardFiles := SortedMap FileId RecordFile

/-- The files of a block by tag. -/
abbrev BlockFiles := FileTag → Option RecordFile

namespace Reference

/-- The files that a block names and the card has. -/
def Block.on (block : Block) (files : CardFiles) : BlockFiles :=
  fun tag => (block.file? tag).bind files.find?

/-- The reference table that the records of a file describe. -/
def Table.on? (files : CardFiles) (reference : FileId) : Option Table :=
  (files.find? reference).map fun file => parse file.records

/-- No file serves twice, and none of them is the reference file. -/
structure Table.Separate (table : Table) (reference : FileId) : Prop where
  once : ∀ i j a b tag tag' id, table.block? i = some a → table.block? j = some b →
    a.file? tag = some id → b.file? tag' = some id → i = j ∧ tag = tag'
  apart : ∀ i a tag, table.block? i = some a → a.file? tag ≠ some reference

end Reference

namespace BlockFiles

/-- The same files, but for one. -/
def put (files : BlockFiles) (tag : FileTag) (file : RecordFile) : BlockFiles :=
  fun other => if other = tag then some file else files other

def addressCount (files : BlockFiles) : Nat :=
  match files .adn with
  | some file => file.records.length
  | none => 0

/-- The slot that the byte at `position` of the index-pointer record at `offset` names. -/
def slot? (files : BlockFiles) (position offset : Nat) : Option Nat :=
  (files .iap).bind fun file => file.records[offset]?.bind (pointedSlot? · position)

/-- The pointer bytes of a block are in order: of two entries no two name the same slot of a kind,
and the slot that an entry names holds a value. -/
structure WellLinked (files : BlockFiles) (table : Reference.Table) : Prop where
  exclusive : ∀ kind position a b slot, table.linkage kind = .type2 position →
    a < files.addressCount → b < files.addressCount →
    files.slot? position a = some slot → files.slot? position b = some slot → a = b
  live : ∀ kind position a slot, table.linkage kind = .type2 position → a < files.addressCount →
    files.slot? position a = some slot →
    ∃ file record, files (.ofKind kind) = some file ∧ file.record? slot = some record ∧
      kind.decode record ≠ []

end BlockFiles

/-- The files of a sound phonebook: records of the length that their file has, files that serve
once, pointer bytes of the two kinds at two places, and pointer bytes that are in order. -/
structure WellFormed (reference : FileId) (files : CardFiles) : Prop where
  sized : ∀ id file, files.find? id = some file → file.WellSized
  separate : ∀ table, Reference.Table.on? files reference = some table → table.Separate reference
  places : ∀ table position, Reference.Table.on? files reference = some table →
    table.linkage .email = .type2 position → table.linkage .anr ≠ .type2 position
  linked : ∀ table i block, Reference.Table.on? files reference = some table →
    table.block? i = some block → (block.on files).WellLinked table

/-- Records of the length that their file has, and files that serve once. -/
structure Regular (reference : FileId) (files : CardFiles) : Prop where
  sized : ∀ id file, files.find? id = some file → file.WellSized
  separate : ∀ table, Reference.Table.on? files reference = some table → table.Separate reference

/-! ## Tags -/

theorem FileTag.ofKind_injective {kind other : FieldKind} (h : ofKind kind = ofKind other) :
    kind = other := by
  cases kind <;> cases other
  · rfl
  · cases h
  · cases h
  · rfl

@[simp] theorem FileTag.ofKind_ne_iap (kind : FieldKind) : ofKind kind ≠ iap := by
  cases kind <;> decide

@[simp] theorem FileTag.ofKind_ne_adn (kind : FieldKind) : ofKind kind ≠ adn := by
  cases kind <;> decide

@[simp] theorem FileTag.ofKind_ne_ext1 (kind : FieldKind) : ofKind kind ≠ ext1 := by
  cases kind <;> decide

/-! ## Pointer bytes -/

theorem pointedSlot?_eq_some_iff {record : Bytes} {position slot : Nat} :
    pointedSlot? record position = some slot ↔
      ∃ b, record[position]? = some b ∧ b.toNat = slot ∧ 1 ≤ slot ∧ slot ≤ maxPointedSlot := by
  unfold pointedSlot?
  constructor
  · intro h
    split at h
    · next b hb =>
      split at h
      · next range =>
        cases h
        exact ⟨b, hb, rfl, range⟩
      · cases h
    · cases h
  · rintro ⟨b, hb, rfl, range⟩
    rw [hb]
    simp [range]

/-- A pointer byte that is overwritten leaves the others as they are. -/
theorem pointedSlot?_set_of_ne {position other : Nat} (h : other ≠ position) (record : Bytes)
    (b : UInt8) : pointedSlot? (record.set position b) other = pointedSlot? record other := by
  unfold pointedSlot?
  rw [List.getElem?_set_ne (Ne.symm h)]

/-! ## Records -/

namespace RecordFile

theorem record?_eq {file : RecordFile} {number : Nat} (h : 1 ≤ number) :
    file.record? number = file.records[number - 1]? := by
  obtain ⟨n, rfl⟩ : ∃ n, number = n + 1 := ⟨number - 1, by omega⟩
  rfl

theorem record?_setRecord {file : RecordFile} {number : Nat} (low : 1 ≤ number)
    (high : number ≤ file.records.length) (record : Bytes) (other : Nat) :
    (file.setRecord number record).record? other =
      if other = number then some record else file.record? other := by
  cases other with
  | zero =>
    rw [if_neg (by omega)]
    rfl
  | succ n =>
    show (file.records.set (number - 1) record)[n]? = _
    by_cases same : n + 1 = number
    · subst same
      rw [if_pos rfl, Nat.add_sub_cancel, List.getElem?_set_self (by omega)]
    · rw [if_neg same, List.getElem?_set_ne (by omega)]
      rfl

@[simp] theorem geometry_setRecord (file : RecordFile) (number : Nat) (data : Bytes) :
    (file.setRecord number data).geometry = file.geometry := by
  simp [setRecord, geometry]

end RecordFile

/-! ## One file changed -/

namespace BlockFiles

variable (files : BlockFiles)

@[simp] theorem put_self (tag : FileTag) (file : RecordFile) :
    files.put tag file tag = some file := by
  simp [put]

theorem put_of_ne {tag other : FileTag} (h : other ≠ tag) (file : RecordFile) :
    files.put tag file other = files other := by
  simp [put, h]

theorem addressCount_put {tag : FileTag} (h : tag ≠ .adn) (file : RecordFile) :
    (files.put tag file).addressCount = files.addressCount := by
  unfold addressCount
  rw [put_of_ne files h.symm]

theorem slot?_put {tag : FileTag} (h : tag ≠ .iap) (file : RecordFile) (position offset : Nat) :
    (files.put tag file).slot? position offset = files.slot? position offset := by
  unfold slot?
  rw [put_of_ne files h.symm]

theorem slot?_setRecord {files : BlockFiles} {file : RecordFile} (h : files .iap = some file)
    {offset : Nat} (inside : offset < file.records.length) (record : Bytes)
    (position other : Nat) :
    (files.put .iap (file.setRecord (offset + 1) record)).slot? position other =
      if other = offset then pointedSlot? record position else files.slot? position other := by
  unfold slot?
  rw [put_self, h]
  simp only [Option.bind_some, RecordFile.setRecord, Nat.add_sub_cancel]
  split
  · next e =>
    subst e
    rw [List.getElem?_set_self inside]
    rfl
  · next ne => rw [List.getElem?_set_ne (Ne.symm ne)]

end BlockFiles

namespace Reference

theorem Table.on?_replace {files : CardFiles} {reference id : FileId} (h : id ≠ reference)
    (file : RecordFile) :
    Table.on? (files.replace id file) reference = Table.on? files reference := by
  unfold Table.on?
  rw [SortedMap.find?_replace, if_neg h.symm]

/-- A block that does not name a file does not see it change. -/
theorem Block.on_replace_of_ne {block : Block} {id : FileId} (h : ∀ tag, block.file? tag ≠ some id)
    (files : CardFiles) (file : RecordFile) :
    block.on (files.replace id file) = block.on files := by
  funext tag
  unfold Block.on
  cases named : block.file? tag with
  | none => rfl
  | some other =>
    have : other ≠ id := fun e => h tag (e ▸ named)
    simp only [Option.bind_some, SortedMap.find?_replace, if_neg this]

/-- A block that names a file under one tag alone sees it change there. -/
theorem Block.on_replace_self {block : Block} {tag : FileTag} {id : FileId}
    (named : block.file? tag = some id) (once : ∀ other, block.file? other = some id → other = tag)
    {files : CardFiles} {old : RecordFile} (found : files.find? id = some old)
    (file : RecordFile) : block.on (files.replace id file) = (block.on files).put tag file := by
  funext other
  unfold Block.on BlockFiles.put
  by_cases same : other = tag
  · subst same
    simp [named, SortedMap.find?_replace, found]
  · rw [if_neg same]
    dsimp only
    cases named' : block.file? other with
    | none => rfl
    | some id' =>
      have : id' ≠ id := fun e => same (once other (e ▸ named'))
      simp only [Option.bind_some, SortedMap.find?_replace, if_neg this]

/-- Files under two tags are two files, of one block or of two. -/
theorem Table.Separate.ne_of_tag {table : Table} {reference : FileId}
    (separate : table.Separate reference) {i j : Nat} {a b : Block} {tag tag' : FileTag}
    {id id' : FileId} (here : table.block? i = some a) (there : table.block? j = some b)
    (named : a.file? tag = some id) (named' : b.file? tag' = some id') (ne : tag ≠ tag') :
    id ≠ id' := by
  rintro rfl
  exact ne (separate.once i j a b tag tag' id here there named named').2

end Reference

/-! ## Files of the same size -/

/-- The same files in the same sizes. -/
def SameShape (a b : CardFiles) : Prop :=
  ∀ id, (b.find? id).map (·.geometry) = (a.find? id).map (·.geometry)

theorem SameShape.refl (a : CardFiles) : SameShape a a := fun _ => rfl

theorem SameShape.trans {a b c : CardFiles} (h : SameShape a b) (h' : SameShape b c) :
    SameShape a c := fun id => (h' id).trans (h id)

theorem SameShape.exists_file {a b : CardFiles} (h : SameShape a b) {id : FileId}
    {file : RecordFile} (found : a.find? id = some file) :
    ∃ file', b.find? id = some file' ∧ file'.geometry = file.geometry := by
  have same := h id
  rw [found] at same
  exact Option.map_eq_some_iff.1 same

theorem SameShape.on {a b : CardFiles} (h : SameShape a b) (block : Reference.Block)
    (tag : FileTag) : (block.on b tag).map (·.geometry) = (block.on a tag).map (·.geometry) := by
  unfold Reference.Block.on
  cases block.file? tag with
  | none => rfl
  | some id => exact h id

/-! ## Deciding -/

/-- The place of the pointer byte, under index-pointer linkage. -/
def Linkage.position? : Linkage → Option Nat
  | .type1 => none
  | .type2 position => some position

theorem Linkage.position?_eq_some_iff {linkage : Linkage} {position : Nat} :
    linkage.position? = some position ↔ linkage = .type2 position := by
  cases linkage <;> simp [position?]

instance (file : RecordFile) : Decidable file.WellSized :=
  inferInstanceAs (Decidable (∀ record ∈ file.records, record.length = file.recordLen))

/-- The files that a table names, with the block and the tag. -/
def Reference.Table.names (table : Reference.Table) : List (Nat × FileTag × FileId) :=
  table.blocks.zipIdx.flatMap fun (block, i) =>
    FileTag.all.filterMap fun tag => (block.file? tag).map fun id => (i, tag, id)

theorem Reference.Table.mem_names {table : Reference.Table} {i : Nat} {tag : FileTag}
    {id : FileId} : (i, tag, id) ∈ table.names ↔
      ∃ block, table.block? i = some block ∧ block.file? tag = some id := by
  unfold names
  rw [List.mem_flatMap]
  constructor
  · rintro ⟨⟨block, j⟩, member, there⟩
    obtain ⟨tag', -, there⟩ := List.mem_filterMap.1 there
    obtain ⟨id', named, same⟩ := Option.map_eq_some_iff.1 there
    cases same
    exact ⟨block, List.mem_zipIdx_iff_getElem?.1 member, named⟩
  · rintro ⟨block, here, named⟩
    refine ⟨(block, i), List.mem_zipIdx_iff_getElem?.2 here, ?_⟩
    exact List.mem_filterMap.2 ⟨tag, tag.mem_all, by rw [named]; rfl⟩

instance (table : Reference.Table) (reference : FileId) : Decidable (table.Separate reference) :=
  decidable_of_iff
    ((∀ a ∈ table.names, ∀ b ∈ table.names, a.2.2 = b.2.2 → a.1 = b.1 ∧ a.2.1 = b.2.1) ∧
      ∀ a ∈ table.names, a.2.2 ≠ reference) <| by
    constructor
    · rintro ⟨once, apart⟩
      refine ⟨fun i j a b tag tag' id here there names names' => ?_, fun i a tag here names => ?_⟩
      · exact once (i, tag, id) (Reference.Table.mem_names.2 ⟨a, here, names⟩) (j, tag', id)
          (Reference.Table.mem_names.2 ⟨b, there, names'⟩) rfl
      · exact apart (i, tag, reference) (Reference.Table.mem_names.2 ⟨a, here, names⟩) rfl
    · rintro ⟨once, apart⟩
      refine ⟨?_, ?_⟩
      · rintro ⟨i, tag, id⟩ first ⟨j, tag', id'⟩ second rfl
        obtain ⟨a, here, names⟩ := Reference.Table.mem_names.1 first
        obtain ⟨b, there, names'⟩ := Reference.Table.mem_names.1 second
        exact once i j a b tag tag' _ here there names names'
      · rintro ⟨i, tag, id⟩ member rfl
        obtain ⟨a, here, names⟩ := Reference.Table.mem_names.1 member
        exact apart i a tag here names

/-- A slot is named by one entry and has a value. -/
instance (files : BlockFiles) (table : Reference.Table) : Decidable (files.WellLinked table) :=
  decidable_of_iff
    (∀ kind ∈ FieldKind.all, ∀ position ∈ (table.linkage kind).position?,
      ∀ a < files.addressCount, ∀ slot ∈ files.slot? position a,
        (∀ b < files.addressCount, files.slot? position b = some slot → a = b) ∧
        ∃ record ∈ (files (.ofKind kind)).bind (·.record? slot), kind.decode record ≠ []) <| by
    constructor
    · intro h
      refine ⟨fun kind position a b slot pointed insideA insideB namesA namesB => ?_,
        fun kind position a slot pointed inside names => ?_⟩
      · exact (h kind kind.mem_all position (Linkage.position?_eq_some_iff.2 pointed) a insideA slot
          namesA).1 b insideB namesB
      · obtain ⟨record, there, some⟩ := (h kind kind.mem_all position
          (Linkage.position?_eq_some_iff.2 pointed) a inside slot names).2
        obtain ⟨file, found, there⟩ := Option.bind_eq_some_iff.1 there
        exact ⟨file, record, found, there, some⟩
    · rintro ⟨exclusive, live⟩ kind - position pointed a inside slot names
      have pointed := Linkage.position?_eq_some_iff.1 pointed
      refine ⟨fun b inside' names' => exclusive kind position a b slot pointed inside inside' names
        names', ?_⟩
      obtain ⟨file, record, found, there, some⟩ := live kind position a slot pointed inside names
      exact ⟨record, by rw [found]; exact there, some⟩

theorem SortedMap.mem_of_find? {κ β : Type} [DecidableEq κ] {m : SortedMap κ β} {key : κ}
    {value : β} (h : m.find? key = some value) : (key, value) ∈ m.items := by
  obtain ⟨items⟩ := m
  unfold find? at h
  dsimp only at h ⊢
  induction items with
  | nil => cases h
  | cons item rest ih =>
    obtain ⟨other, first⟩ := item
    rw [List.lookup_cons] at h
    by_cases same : key = other
    · subst same
      rw [beq_self_eq_true] at h
      cases h
      exact List.mem_cons_self
    · have no : (key == other) = false := by simpa using same
      rw [no] at h
      exact List.mem_cons_of_mem _ (ih h)

/-- The length of every record is decided, and which file serves twice. -/
instance (reference : FileId) (files : CardFiles) : Decidable (Regular reference files) :=
  decidable_of_iff
    ((∀ item ∈ files.items, ∀ file ∈ files.find? item.1, file.WellSized) ∧
      ∀ table ∈ Reference.Table.on? files reference, table.Separate reference) <| by
    constructor
    · rintro ⟨sized, separate⟩
      exact ⟨fun id file found => sized (id, file) (SortedMap.mem_of_find? found) file found,
        separate⟩
    · rintro ⟨sized, separate⟩
      exact ⟨fun item _ => sized item.1, separate⟩

/-- Of a card everything is decided that a sound phonebook needs. -/
instance (reference : FileId) (files : CardFiles) : Decidable (WellFormed reference files) :=
  decidable_of_iff
    ((∀ item ∈ files.items, ∀ file ∈ files.find? item.1, file.WellSized) ∧
      ∀ table ∈ Reference.Table.on? files reference, table.Separate reference ∧
        (∀ position ∈ table.email.position?, table.anr ≠ .type2 position) ∧
        ∀ block ∈ table.blocks, (block.on files).WellLinked table) <| by
    constructor
    · rintro ⟨sized, h⟩
      refine ⟨fun id file found => sized (id, file) (SortedMap.mem_of_find? found) file found,
        fun table rooted => (h table rooted).1, fun table position rooted pointed => ?_,
        fun table i block rooted named => ?_⟩
      · exact (h table rooted).2.1 position (Linkage.position?_eq_some_iff.2 pointed)
      · exact (h table rooted).2.2 block (List.mem_of_getElem? named)
    · rintro ⟨sized, separate, places, linked⟩
      refine ⟨fun item _ file found => sized item.1 file found, fun table rooted =>
        ⟨separate table rooted, fun position pointed => ?_, fun block member => ?_⟩⟩
      · exact places table position rooted (Linkage.position?_eq_some_iff.1 pointed)
      · obtain ⟨i, named⟩ := List.getElem?_of_mem member
        exact linked table i block rooted named

end UsimPhonebook
