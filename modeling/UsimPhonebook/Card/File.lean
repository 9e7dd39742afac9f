import UsimPhonebook.Bytes

/-! # Linear files and their geometry

A file of the card is a list of records of one length. `RecordFile.WellSized` says that every
record has that length; `RecordFile.ofRecords` brings records to it, while a file filled by other
means may hold records of any length.
-/

namespace UsimPhonebook

structure Geometry where
  recordLen : Nat
  count : Nat
  deriving DecidableEq, Repr

namespace Geometry

/-- The size of all records together, as a 64-bit machine word. -/
def total (g : Geometry) : Nat := g.recordLen * g.count % wordLimit

/-- Some record of the file has this number; the first one is number 1. -/
def contains (g : Geometry) (number : Nat) : Bool := 1 ≤ number && number ≤ g.count

@[simp] theorem contains_iff (g : Geometry) (number : Nat) :
    g.contains number = true ↔ 1 ≤ number ∧ number ≤ g.count := by
  simp [contains]

end Geometry

structure RecordFile where
  recordLen : Nat
  records : List Bytes
  deriving DecidableEq, Repr

namespace RecordFile

def WellSized (f : RecordFile) : Prop := ∀ record ∈ f.records, record.length = f.recordLen

/-- The file of these records, each cut or filled to the record length. -/
def ofRecords (recordLen : Nat) (records : List Bytes) : RecordFile :=
  ⟨recordLen, records.map (Bytes.fitTo recordLen)⟩

def unused (recordLen count : Nat) : RecordFile :=
  ⟨recordLen, List.replicate count (Bytes.blank recordLen)⟩

def geometry (f : RecordFile) : Geometry := ⟨f.recordLen, f.records.length⟩

def record? (f : RecordFile) (number : Nat) : Option Bytes := numbered? f.records number

/-- The records of the given numbers in the given order, less those that do not exist. -/
def select (f : RecordFile) (numbers : List Nat) : List Bytes := numbers.filterMap f.record?

/-- Puts a record in the place of the one with that number. -/
def setRecord (f : RecordFile) (number : Nat) (data : Bytes) : RecordFile :=
  { f with records := f.records.set (number - 1) data }

theorem wellSized_ofRecords (recordLen : Nat) (records : List Bytes) :
    (ofRecords recordLen records).WellSized := by
  intro record h
  obtain ⟨_, _, rfl⟩ := List.mem_map.1 h
  simp [ofRecords]

/-- A record of the file's length keeps the file in shape. -/
theorem WellSized.setRecord {f : RecordFile} (h : f.WellSized) (number : Nat) {data : Bytes}
    (len : data.length = f.recordLen) : (f.setRecord number data).WellSized := by
  intro record mem
  rcases List.mem_or_eq_of_mem_set mem with mem | rfl
  · exact h record mem
  · exact len

end RecordFile

end UsimPhonebook
