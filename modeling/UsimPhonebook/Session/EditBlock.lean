import UsimPhonebook.Session.Desk

/-! # Editing a field

An edit writes one record of a field's file and, when a value is added or taken away under
index-pointer linkage, the pointer byte of the entry.

* `BlockState.resolveSlot` picks the record: the one at the entry's own number, the one its
  pointer byte names, or the first free one.
* `Desk.edit` writes the field's record first and the pointer second. A failure between the two
  writes is not rolled back.
-/

namespace UsimPhonebook

def recordByte (number : Nat) : Except Error UInt8 :=
  if number < 256 then .ok (UInt8.ofNat number) else .error (.invalid .recordNumber)

/-- The record (from 1) that an edit of the entry at `offset` writes. Under index pointers an
entry without a record gets the first free one, unless it was said to have a value. -/
def BlockState.resolveSlot (b : BlockState) (kind : FieldKind) (linkage : Linkage) (offset : Nat)
    (old : Text) : Except Error Nat :=
  match linkage with
  | .type1 => .ok (offset + 1)
  | .type2 position =>
    match b.pointer? offset with
    | none => .error (.notLoaded .pointers)
    | some record =>
      match pointedSlot? record position with
      | some slot => .ok slot
      | none =>
        if old ≠ [] then .error .noLinkedSlot
        else
          match b.store kind with
          | none => .error (.notLoaded (.field kind))
          | some store =>
            match store.firstFree? with
            | some index => if index < maxPointedSlot then .ok (index + 1) else .error .noFreeSlot
            | none => .error .noFreeSlot

namespace Desk

/-- Fails unless the file has a record with this number. -/
def checkSlot (size : Geometry) (slot : Nat) : Except Error Unit :=
  if size.contains slot then .ok () else .error (.slotOutOfRange slot size.count)

/-- Fails unless the records of the file have a byte at this position. -/
def checkPosition (size : Geometry) (position : Nat) : Except Error Unit :=
  if size.recordLen ≤ position then .error .pointerBeyondRecord else .ok ()

/-- An index-pointer record of `recordLen` bytes with another pointer byte. -/
def pointerRecord (held : Option Bytes) (recordLen position : Nat) (pointer : UInt8) : Bytes :=
  (Bytes.fitTo recordLen (held.getD [])).set position pointer

def writePointer (file : FileId) (offset : Nat) (record : Bytes) : Action Desk Unit := do
  write file (offset + 1) record
  change (·.setPointer offset record)
  note .pointerRewritten

/-- Writes `pointer` into the byte at `position` of the index-pointer record of the entry at
`offset`; the other bytes of the record stay as the session holds them. -/
def rewritePointer (files : Reference.Block) (offset position : Nat) (pointer : UInt8) :
    Action Desk Unit := do
  let file ← .lift (fileOf files .iap)
  let size ← sizeOf file
  .lift (checkSlot size (offset + 1))
  .lift (checkPosition size position)
  let block ← current
  writePointer file offset (pointerRecord (block.pointer? offset) size.recordLen position pointer)

/-- Sees to the pointer byte of the entry at `offset` when a value was added to `slot` or taken
away from it. -/
def relink (files : Reference.Block) (linkage : Linkage) (offset slot : Nat) (old new : Text) :
    Action Desk Unit :=
  match linkage with
  | .type1 => pure ()
  | .type2 position =>
    if old.isEmpty = new.isEmpty then pure ()
    else rewritePointer files offset position (if new.isEmpty then 0 else UInt8.ofNat slot)

/-- Puts a record into the store of a kind, if it is loaded. -/
def putRecord (kind : FieldKind) (slot : Nat) (record : Bytes) (b : BlockState) : BlockState :=
  match b.store kind with
  | some store => b.setStore kind (store.put (slot - 1) record)
  | none => b

def writeSlot (file : FileId) (kind : FieldKind) (slot : Nat) (record : Bytes) :
    Action Desk Unit := do
  write file slot record
  change (putRecord kind slot record)
  note (.slotWritten kind)

/-- The number by which a record of a field names its entry; positional records name none. -/
def backLink (linkage : Linkage) (offset : Nat) : Except Error (Option UInt8) :=
  match linkage with
  | .type1 => .ok none
  | .type2 _ => (recordByte (offset + 1)).map some

def encodeField (kind : FieldKind) (linkage : Linkage) (offset : Nat) (size : Geometry)
    (value : Text) : Except Error Bytes := do
  let link ← backLink linkage offset
  kind.encode size.recordLen value link

/-- The entry at `offset` has the value that reads back from a record, or none if that is empty. -/
def applyValue (kind : FieldKind) (offset : Nat) (record : Bytes) (b : BlockState) : BlockState :=
  let stored := kind.decode record
  b.modifyEntry offset (·.setValues kind (if stored.isEmpty then [] else [stored]))

/-- Replaces a value of the entry at `offset`: an empty `old` adds one, an empty `new` takes one
away. -/
def edit (files : Reference.Block) (linkage : Linkage) (kind : FieldKind) (offset : Nat)
    (old new : Text) : Action Desk Unit := do
  let file ← .lift (fileOf files (.ofKind kind))
  let block ← current
  let slot ← .lift (block.resolveSlot kind linkage offset old)
  let size ← sizeOf file
  .lift (checkSlot size slot)
  let record ← .lift (encodeField kind linkage offset size new)
  writeSlot file kind slot record
  relink files linkage offset slot old new
  change (applyValue kind offset record)

end Desk

end UsimPhonebook
