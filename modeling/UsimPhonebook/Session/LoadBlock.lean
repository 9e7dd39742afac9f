import UsimPhonebook.Session.Desk
import UsimPhonebook.Session.Join

/-! # Loading a block

A block is loaded by reading its address records, extending their numbers, reading the records of
each kind of field, and joining them to the entries.

* A failure to read the address records fails the load (`Desk.loadEntries`).
* A failure to read the extension records leaves the numbers as they are, and a failure to read a
  kind of field leaves that kind out; neither fails the load.
* A kind whose records are held already is not read again.
-/

namespace UsimPhonebook.Desk

def decodeEntries (file : FileId) (records : List Bytes) : List Entry :=
  records.zipIdx.map fun (record, index) => Entry.decode file (index + 1) record

/-- The record numbers of files with one record for each of `count` entries. A block without
entries still asks for the first record. -/
def recordNumbers (count : Nat) : List Nat := if count = 0 then [1] else List.range' 1 count

/-- The file of extension records, if the block names one and some entry asks for it. -/
def extensionFile? (files : Reference.Block) (entries : List Entry) : Option FileId :=
  if entries.any (·.extension.isSome) then files.file? .ext1 else none

/-- Extends the numbers of entries by the extension records, if these can be had. -/
def extendEntries (files : Reference.Block) (entries : List Entry) : Action Desk (List Entry) :=
  match extensionFile? files entries with
  | none => pure entries
  | some file => do
    match ← (readAll file).attempt with
    | some records => pure (entries.map (·.extend records))
    | none => pure entries

def loadEntries (files : Reference.Block) : Action Desk Unit := do
  let file ← .lift (fileOf files .adn)
  let records ← readAll file
  let entries ← extendEntries files (decodeEntries file records)
  change fun b => { b with entries := some entries, numbers := recordNumbers entries.length }

/-- Keeps index-pointer records, unless there are none; gives whether there are any. -/
def keepPointers (records : List Bytes) : Action Desk Bool := do
  change fun b => { b with pointers := if records.isEmpty then none else some records }
  pure (!records.isEmpty)

/-- Sees to the index-pointer records; gives whether there are any. Records that are held already
serve again if they may be shared between kinds. -/
def loadPointers (files : Reference.Block) (share : Bool) : Action Desk Bool := do
  let block ← current
  if share && block.pointers.isSome then pure true
  else
    match files.file? .iap with
    | none => pure false
    | some file => do
      let records ← readSubset file block.numbers
      keepPointers records

/-- Keeps the records of a kind, none of them in use. -/
def keepRecords (kind : FieldKind) (records : List Bytes) : Action Desk Unit :=
  change (·.setStore kind (.ofRecords records))

def loadRecords (files : Reference.Block) (linkage : Linkage) (share : Bool) (kind : FieldKind)
    (file : FileId) : Action Desk Unit :=
  match linkage with
  | .type1 => do
    let block ← current
    let records ← readSubset file block.numbers
    keepRecords kind records
  | .type2 _ => do
    let linked ← loadPointers files share
    if linked then do
      let records ← readAll file
      keepRecords kind records
    else pure ()

/-- Reads the records of a kind of field, if the block names a file for it. -/
def loadField (files : Reference.Block) (linkage : Linkage) (share : Bool) (kind : FieldKind) :
    Action Desk Unit :=
  match files.file? (.ofKind kind) with
  | none => pure ()
  | some file => loadRecords files linkage share kind file

/-- Reads the records of a kind unless they are held; a failure leaves them out. -/
def completeField (files : Reference.Block) (table : Reference.Table) (share : Bool)
    (kind : FieldKind) : Action Desk Unit := do
  let block ← current
  if (block.store kind).isSome then pure ()
  else (loadField files (table.linkage kind) share kind).ignoringFailure

/-- Reads a block and joins it. -/
def load (files : Reference.Block) (table : Reference.Table) (share : Bool) :
    Action Desk Unit := do
  loadEntries files
  completeField files table share .email
  completeField files table share .anr
  change (·.join table)

end UsimPhonebook.Desk
