import UsimPhonebook.Bytes

/-! # Field stores

The records of a field's file as a session holds them, each with a flag that says whether an entry
uses it. A record and its flag are one slot, so there is one flag for each record.

* `FieldStore.put` writes a slot: it counts as used unless the record is blank
  (`FieldStore.slot?_put`).
* `FieldStore.freeCount` and `FieldStore.firstFree?` look at the flags.
-/

namespace UsimPhonebook

structure FieldSlot where
  record : Bytes
  used : Bool := false
  deriving DecidableEq, Repr

/-- The slots of a field's file; slot 0 is record number 1. -/
structure FieldStore where
  slots : List FieldSlot := []
  deriving DecidableEq, Repr

namespace FieldStore

/-- The store of these records, none of them in use. -/
def ofRecords (records : List Bytes) : FieldStore := ⟨records.map fun record => { record }⟩

def size (s : FieldStore) : Nat := s.slots.length

def records (s : FieldStore) : List Bytes := s.slots.map (·.record)

def flags (s : FieldStore) : List Bool := s.slots.map (·.used)

def record? (s : FieldStore) (index : Nat) : Option Bytes := s.slots[index]?.map (·.record)

def freeCount (s : FieldStore) : Nat := s.slots.countP fun slot => !slot.used

def firstFree? (s : FieldStore) : Option Nat := s.slots.findIdx? fun slot => !slot.used

def use (s : FieldStore) (index : Nat) : FieldStore :=
  ⟨s.slots.modify index fun slot => { slot with used := true }⟩

def release (s : FieldStore) : FieldStore := ⟨s.slots.map fun slot => { slot with used := false }⟩

/-- The slot of a record that was just written: in use unless the record is blank. -/
def written (record : Bytes) : FieldSlot := ⟨record, !Bytes.isBlank record⟩

/-- Writes a record into a slot. A store too short for it is filled up with blank slots. -/
def put (s : FieldStore) (index : Nat) (record : Bytes) : FieldStore :=
  if index < s.slots.length then ⟨s.slots.set index (written record)⟩
  else ⟨s.slots ++ List.replicate (index - s.slots.length) { record := Bytes.blank record.length }
    ++ [written record]⟩

@[simp] theorem length_flags (s : FieldStore) : s.flags.length = s.size := by simp [flags, size]

@[simp] theorem length_records (s : FieldStore) : s.records.length = s.size := by
  simp [records, size]

@[simp] theorem size_use (s : FieldStore) (index : Nat) : (s.use index).size = s.size := by
  simp [use, size]

@[simp] theorem size_release (s : FieldStore) : s.release.size = s.size := by
  simp [release, size]

@[simp] theorem records_ofRecords (rs : List Bytes) : (ofRecords rs).records = rs := by
  simp [ofRecords, records, Function.comp_def]

@[simp] theorem records_release (s : FieldStore) : s.release.records = s.records := by
  simp [release, records, Function.comp_def]

@[simp] theorem slot?_put (s : FieldStore) (index : Nat) (record : Bytes) :
    (s.put index record).slots[index]? = some (written record) := by
  unfold put
  split
  · simp [*]
  · rw [List.getElem?_append_right (by simp; omega)]
    have : index - (s.slots.length + (index - s.slots.length)) = 0 := by omega
    simp [this]

end FieldStore

end UsimPhonebook
