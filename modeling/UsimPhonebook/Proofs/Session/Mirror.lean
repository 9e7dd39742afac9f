import UsimPhonebook.Proofs.Card.BlockFiles
import UsimPhonebook.Proofs.Field.Store
import UsimPhonebook.Session.Join
import UsimPhonebook.Session.LoadBlock

/-! # What a session holds is on the card

Of a file with one record for each entry a session holds as many records as there are address
records (`BlockFiles.perEntry`), of the file of a kind under index-pointer linkage all of them
(`BlockFiles.fieldRecords`). `BlockState.Mirrors` says that what is held of a block is that.

Where it is, an entry is linked to the same value by what the session holds and by what is on the
card (`BlockState.Mirrors.linkedValue?_eq`).
-/

namespace UsimPhonebook

namespace BlockFiles

/-- The records, one for each entry, that a session reads of a file. A block without entries still
asks for the first record. -/
def perEntry (files : BlockFiles) (tag : FileTag) : Option (List Bytes) :=
  (files tag).map fun file => file.records.take (max 1 files.addressCount)

/-- The records of a kind that a session reads. -/
def fieldRecords (files : BlockFiles) (linkage : Linkage) (kind : FieldKind) :
    Option (List Bytes) :=
  match linkage with
  | .type1 => files.perEntry (.ofKind kind)
  | .type2 _ => (files (.ofKind kind)).map (·.records)

/-- The files from which the records of a kind are read are there. -/
structure Readable (files : BlockFiles) (linkage : Linkage) (kind : FieldKind) : Prop where
  field : (files (.ofKind kind)).isSome
  pointers : linkage.isType2 → ∃ records, files.perEntry .iap = some records ∧ records ≠ []

theorem readable_of_record {files : BlockFiles} {linkage : Linkage} {kind : FieldKind}
    (offset : Nat) (field : (files (.ofKind kind)).isSome)
    (pointers : ∀ position, linkage = .type2 position →
      ∃ iap record, files .iap = some iap ∧ iap.records[offset]? = some record) :
    files.Readable linkage kind where
  field := field
  pointers t := by
    cases linkage with
    | type1 => cases t
    | type2 position =>
      obtain ⟨iap, record, found, there⟩ := pointers position rfl
      have inside := (List.getElem?_eq_some_iff.1 there).1
      unfold perEntry
      rw [found]
      refine ⟨_, rfl, fun none => ?_⟩
      have short := congrArg List.length none
      rw [List.length_take, List.length_nil] at short
      omega

/-- The slot (from 0) of a kind to which the entry at `offset` is linked. -/
def linkedSlot? (files : BlockFiles) (linkage : Linkage) (offset : Nat) : Option Nat :=
  match linkage with
  | .type1 => some offset
  | .type2 position => (files.slot? position offset).map (· - 1)

theorem linkedSlot?_type2 (files : BlockFiles) (position offset : Nat) :
    files.linkedSlot? (.type2 position) offset = (files.slot? position offset).map (· - 1) := rfl

/-- The value in a slot (from 0), if there is one. -/
def stored? (files : BlockFiles) (kind : FieldKind) (index : Nat) : Option Text :=
  match (files (.ofKind kind)).bind (·.records[index]?) with
  | some record => if kind.decode record = [] then none else some (kind.decode record)
  | none => none

/-- The slot to which the entry at `offset` is linked and the value in it, if there is one. -/
def value? (files : BlockFiles) (linkage : Linkage) (kind : FieldKind) (offset : Nat) :
    Option (Nat × Text) :=
  match files.linkedSlot? linkage offset with
  | some index => (files.stored? kind index).map fun value => (index, value)
  | none => none

end BlockFiles

/-- The records that are held of a block are on the card. -/
structure BlockState.Mirrors (b : BlockState) (table : Reference.Table) (files : BlockFiles) :
    Prop where
  entries : ∀ es, b.entries = some es → (files .adn).isSome ∧ es.length = files.addressCount ∧
    b.numbers = Desk.recordNumbers files.addressCount
  pointers : ∀ records, b.pointers = some records →
    files.perEntry .iap = some records ∧ records ≠ []
  stored : ∀ kind store, b.store kind = some store →
    (files .adn).isSome ∧ files.fieldRecords (table.linkage kind) kind = some store.records
  linked : ∀ kind, (table.linkage kind).isType2 → (b.store kind).isSome → b.pointers.isSome

/-- To ask for the record numbers of the entries is to ask for the first records. -/
theorem RecordFile.select_recordNumbers (file : RecordFile) (count : Nat) :
    file.select (Desk.recordNumbers count) = file.records.take (max 1 count) := by
  have select (start n : Nat) :
      file.select (List.range' (start + 1) n) = (file.records.drop start).take n := by
    induction n generalizing start with
    | zero => simp [RecordFile.select]
    | succ n ih =>
      unfold RecordFile.select at ih ⊢
      rw [List.range'_succ, List.filterMap_cons]
      have first : file.record? (start + 1) = file.records[start]? := rfl
      rw [first, ih (start + 1)]
      by_cases inside : start < file.records.length
      · rw [List.getElem?_eq_getElem inside, List.drop_eq_getElem_cons inside]
        rfl
      · rw [List.getElem?_eq_none (by omega), List.drop_eq_nil_of_le (by omega),
          List.drop_eq_nil_of_le (by omega)]
        simp
  unfold Desk.recordNumbers
  split
  · next none =>
    subst none
    have one := select 0 1
    simpa using one
  · next some =>
    rw [Nat.max_eq_right (by omega)]
    simpa using select 0 count

namespace BlockState

variable {b : BlockState} {table : Reference.Table} {files : BlockFiles} {kind : FieldKind}
  {offset position : Nat}

/-- Of a block of which nothing was read nothing can be wrong. -/
theorem mirrors_empty (table : Reference.Table) (files : BlockFiles) :
    ({} : BlockState).Mirrors table files where
  entries es h := by cases h
  pointers records h := by cases h
  stored kind store h := by cases kind <;> cases h
  linked kind _ h := by cases kind <;> cases h

@[simp] theorem store_invalidate (b : BlockState) (kind : FieldKind) :
    b.invalidate.store kind = b.store kind := by cases kind <;> rfl

theorem Mirrors.invalidate (h : b.Mirrors table files) : b.invalidate.Mirrors table files where
  entries es h' := by cases h'
  pointers := h.pointers
  stored kind store kept := h.stored kind store (store_invalidate b kind ▸ kept)
  linked kind t kept := h.linked kind t (store_invalidate b kind ▸ kept)

theorem Mirrors.pointer?_eq (h : b.Mirrors table files) (held : b.pointers.isSome)
    (inside : offset < files.addressCount) :
    ∃ file, files .iap = some file ∧ b.pointer? offset = file.records[offset]? := by
  obtain ⟨records, kept⟩ := Option.isSome_iff_exists.1 held
  obtain ⟨read, -⟩ := h.pointers records kept
  obtain ⟨file, found, rfl⟩ := Option.map_eq_some_iff.1 read
  refine ⟨file, found, ?_⟩
  unfold pointer?
  rw [kept]
  show (file.records.take _)[offset]? = _
  rw [List.getElem?_take_of_lt (by omega)]

/-- There are no more index-pointer records than entries, unless there is no entry. -/
theorem Mirrors.lt_of_pointer? (h : b.Mirrors table files) {held : Bytes}
    (kept : b.pointer? offset = some held) : offset < max 1 files.addressCount := by
  obtain ⟨records, kept', there⟩ := Option.bind_eq_some_iff.1 kept
  obtain ⟨read, -⟩ := h.pointers records kept'
  obtain ⟨file, -, rfl⟩ := Option.map_eq_some_iff.1 read
  have short := (List.getElem?_eq_some_iff.1 there).1
  rw [List.length_take] at short
  omega

theorem Mirrors.slot?_eq (h : b.Mirrors table files) (held : b.pointers.isSome)
    (inside : offset < files.addressCount) (position : Nat) :
    (b.pointer? offset).bind (pointedSlot? · position) = files.slot? position offset := by
  obtain ⟨file, found, same⟩ := h.pointer?_eq held inside
  unfold BlockFiles.slot?
  rw [found, same]
  rfl

theorem Mirrors.record?_eq (h : b.Mirrors table files) {store : FieldStore}
    (kept : b.store kind = some store) {index : Nat}
    (inside : (table.linkage kind).isType2 = false → index < files.addressCount) :
    store.record? index = (files (.ofKind kind)).bind (·.records[index]?) := by
  obtain ⟨-, read⟩ := h.stored kind store kept
  rw [FieldStore.record?_eq]
  unfold BlockFiles.fieldRecords at read
  cases linkage : table.linkage kind with
  | type1 =>
    rw [linkage] at read inside
    obtain ⟨file, found, records⟩ := Option.map_eq_some_iff.1 read
    have inside := inside rfl
    rw [found, ← records, List.getElem?_take_of_lt (by omega)]
    rfl
  | type2 position =>
    rw [linkage] at read
    obtain ⟨file, found, records⟩ := Option.map_eq_some_iff.1 read
    rw [found, ← records]
    rfl

/-- By what is held an entry is linked to the same value as on the card. -/
theorem Mirrors.linkedValue?_eq (h : b.Mirrors table files) {store : FieldStore}
    (kept : b.store kind = some store) (inside : offset < files.addressCount) :
    b.linkedValue? kind (table.linkage kind) store offset =
      files.value? (table.linkage kind) kind offset := by
  unfold linkedValue? BlockFiles.value?
  have stored (index : Nat)
      (inside : (table.linkage kind).isType2 = false → index < files.addressCount) :
      storedValue? kind store index = files.stored? kind index := by
    have same := h.record?_eq kept inside
    unfold storedValue? BlockFiles.stored?
    generalize store.record? index = record at same
    subst same
    rfl
  have held := h.linked kind
  cases linkage : table.linkage kind with
  | type1 =>
    rw [linkage] at stored
    show (storedValue? kind store offset).map _ = (files.stored? kind offset).map _
    rw [stored offset fun _ => inside]
  | type2 position =>
    rw [linkage] at stored held
    have same : b.linkedSlot? (.type2 position) offset =
        files.linkedSlot? (.type2 position) offset := by
      have slot := h.slot?_eq (held rfl (by rw [kept]; rfl)) inside position
      show _ = (files.slot? position offset).map (· - 1)
      rw [← slot]
      unfold linkedSlot?
      cases b.pointer? offset <;> rfl
    rw [same]
    cases files.linkedSlot? (.type2 position) offset with
    | none => rfl
    | some index =>
      show (storedValue? kind store index).map _ = (files.stored? kind index).map _
      rw [stored index fun no => by cases no]

end BlockState

end UsimPhonebook
