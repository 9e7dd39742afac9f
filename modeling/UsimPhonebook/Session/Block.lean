import UsimPhonebook.Entry
import UsimPhonebook.Field.Record
import UsimPhonebook.Field.Store
import UsimPhonebook.Reference.Table

/-! # The state of a block

What a session holds of one block of the phonebook: the entries, the index-pointer records, and
the records of each kind of field. A change of one of them leaves the others alone
(`store_setStore_of_ne`, `entries_setStore`, `pointers_setStore`, `store_modifyEntry`).
-/

namespace UsimPhonebook

/-- The highest slot that a pointer byte can name. -/
def maxPointedSlot : Nat := 0x7F

/-- The slot (from 1) that the byte at `offset` of an index-pointer record names. Zero, fill and
any other byte with the high bit set name none, and neither does a byte that is not there. -/
def pointedSlot? (record : Bytes) (offset : Nat) : Option Nat :=
  match record[offset]? with
  | some b => if 1 ≤ b.toNat ∧ b.toNat ≤ maxPointedSlot then some b.toNat else none
  | none => none

structure BlockState where
  /-- the entries in record order, once they are loaded -/
  entries : Option (List Entry) := none
  /-- the record numbers that are read of files with one record for each entry -/
  numbers : List Nat := []
  /-- the index-pointer records -/
  pointers : Option (List Bytes) := none
  email : Option FieldStore := none
  anr : Option FieldStore := none
  deriving DecidableEq, Repr

namespace BlockState

def entryCount (b : BlockState) : Nat :=
  match b.entries with
  | some entries => entries.length
  | none => 0

/-- The records of a kind, once they are loaded. -/
def store (b : BlockState) : FieldKind → Option FieldStore
  | .email => b.email
  | .anr => b.anr

def setStore (b : BlockState) (kind : FieldKind) (store : FieldStore) : BlockState :=
  match kind with
  | .email => { b with email := some store }
  | .anr => { b with anr := some store }

def entryAt? (b : BlockState) (offset : Nat) : Option Entry := b.entries.bind (·[offset]?)

def pointer? (b : BlockState) (offset : Nat) : Option Bytes := b.pointers.bind (·[offset]?)

def modifyEntry (b : BlockState) (offset : Nat) (f : Entry → Entry) : BlockState :=
  { b with entries := b.entries.map (·.modify offset f) }

def setPointer (b : BlockState) (offset : Nat) (record : Bytes) : BlockState :=
  { b with pointers := b.pointers.map (·.set offset record) }

/-- Drops the entries, so that the next load reads them again. -/
def invalidate (b : BlockState) : BlockState := { b with entries := none }

@[simp] theorem store_setStore_self (b : BlockState) (kind : FieldKind) (s : FieldStore) :
    (b.setStore kind s).store kind = some s := by cases kind <;> rfl

theorem store_setStore_of_ne (b : BlockState) {kind other : FieldKind} (h : other ≠ kind)
    (s : FieldStore) : (b.setStore kind s).store other = b.store other := by
  cases kind <;> cases other <;> first | rfl | exact absurd rfl h

@[simp] theorem entries_setStore (b : BlockState) (kind : FieldKind) (s : FieldStore) :
    (b.setStore kind s).entries = b.entries := by cases kind <;> rfl

@[simp] theorem pointers_setStore (b : BlockState) (kind : FieldKind) (s : FieldStore) :
    (b.setStore kind s).pointers = b.pointers := by cases kind <;> rfl

@[simp] theorem store_modifyEntry (b : BlockState) (offset : Nat) (f : Entry → Entry)
    (kind : FieldKind) : (b.modifyEntry offset f).store kind = b.store kind := by
  cases kind <;> rfl

@[simp] theorem entryCount_modifyEntry (b : BlockState) (offset : Nat) (f : Entry → Entry) :
    (b.modifyEntry offset f).entryCount = b.entryCount := by
  unfold entryCount modifyEntry
  cases b.entries <;> simp

end BlockState

end UsimPhonebook
