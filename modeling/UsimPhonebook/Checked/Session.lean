import UsimPhonebook.Checked.Block
import UsimPhonebook.Checked.Tlv
import UsimPhonebook.Checked.Work
import UsimPhonebook.Session.Command

/-! # Loading and editing by index

What a session does on a command, with every access on the way: the codecs and stores by position,
and the block by its number, which is taken anew at every step. Each step has the name of the one of
a desk or a session that it goes by.

`after` carries out a history of commands and faults.
-/

namespace UsimPhonebook.Checked

/-- Asks for the size of a file, which comes with the size of all records together. -/
def sizeOf (file : FileId) : Work Geometry := do
  let size ← .ask (.size file)
  let _ ← .demand (mul? size.recordLen size.count)
  pure size

/-! ## Loading -/

def decodeEntries? (file : FileId) (records : List Bytes) : Option (List Entry) :=
  records.zipIdx.mapM fun (record, index) => decodeEntry? file (index + 1) record

def extendEntries (files : Reference.Block) (entries : List Entry) : Work (List Entry) :=
  match Desk.extensionFile? files entries with
  | none => pure entries
  | some file => do
    match ← (Work.ask (.readAll file)).attempt with
    | some records => .demand (entries.mapM (extend? records))
    | none => pure entries

def loadEntries (i : Nat) (files : Reference.Block) : Work Unit := do
  let file ← .lift (Desk.fileOf files .adn)
  let records ← .ask (.readAll file)
  let entries ← .demand (decodeEntries? file records)
  let entries ← extendEntries files entries
  .change i fun b =>
    some { b with entries := some entries, numbers := Desk.recordNumbers entries.length }

def loadPointers (i : Nat) (files : Reference.Block) (share : Bool) : Work Bool := do
  let b ← .blockAt i
  if share && b.pointers.isSome then pure true
  else
    match files.file? .iap with
    | none => pure false
    | some file => do
      let b ← .blockAt i
      let records ← .ask (.readSubset file b.numbers)
      .change i fun b =>
        some { b with pointers := if records.isEmpty then none else some records }
      pure (!records.isEmpty)

def keepRecords (i : Nat) (kind : FieldKind) (records : List Bytes) : Work Unit :=
  .change i fun b => (Shelf.new records).store?.map (b.setStore kind)

def loadRecords (i : Nat) (files : Reference.Block) (linkage : Linkage) (share : Bool)
    (kind : FieldKind) (file : FileId) : Work Unit :=
  match linkage with
  | .type1 => do
    let b ← .blockAt i
    let records ← .ask (.readSubset file b.numbers)
    keepRecords i kind records
  | .type2 _ => do
    let linked ← loadPointers i files share
    if linked then do
      let records ← .ask (.readAll file)
      keepRecords i kind records
    else pure ()

def loadField (i : Nat) (files : Reference.Block) (linkage : Linkage) (share : Bool)
    (kind : FieldKind) : Work Unit :=
  match files.file? (.ofKind kind) with
  | none => pure ()
  | some file => loadRecords i files linkage share kind file

def completeField (i : Nat) (files : Reference.Block) (table : Reference.Table) (share : Bool)
    (kind : FieldKind) : Work Unit := do
  let b ← .blockAt i
  if (b.store kind).isSome then pure ()
  else (loadField i files (table.linkage kind) share kind).ignoringFailure

def loadAt (i : Nat) (files : Reference.Block) (table : Reference.Table) (share : Bool) :
    Work Unit := do
  loadEntries i files
  completeField i files table share .email
  completeField i files table share .anr
  .change i (join? table)

def readTable : Work Reference.Table := do
  let s ← get
  let records ← .ask (.readAll s.options.referenceFile)
  if records = [] then do
    modify fun s => { s with absent := true }
    throw .referenceAbsent
  else do
    let table ← .demand (parse? records)
    modify (Session.keepTable table)
    pure table

def loadTable : Work Reference.Table := do
  let s ← get
  if s.absent then throw .referenceAbsent
  else
    match s.table with
    | some table => pure table
    | none => readTable

def loadBlock (i : Nat) : Work Unit := do
  let table ← loadTable
  let s ← get
  match s.blocks[i]? with
  | none => throw (.noSuchBlock i)
  | some b =>
    if b.entries.isSome then pure ()
    else do
      let files ← .lift (Session.filesOf table i)
      loadAt i files table s.options.sharePointers

def loadBlocks : List Nat → Work Unit
  | [] => pure ()
  | i :: rest => do
    (loadBlock i).ignoringFailure
    loadBlocks rest

def load : Work (List Entry) := do
  let table ← loadTable
  loadBlocks (List.range table.blocks.length)
  let s ← get
  pure s.entries

/-! ## Editing -/

def writeSlot (i : Nat) (file : FileId) (kind : FieldKind) (slot : Nat) (record : Bytes) :
    Work Unit := do
  .ask (.write file slot record)
  .change i (putRecord? kind slot record)
  .note (.slotWritten kind)

def writePointer (i : Nat) (file : FileId) (offset : Nat) (record : Bytes) : Work Unit := do
  .ask (.write file (offset + 1) record)
  .change i fun b => some (b.setPointer offset record)
  .note .pointerRewritten

/-- Writes `pointer` into the byte at `position` of the index-pointer record of the entry at
`offset`. The record that is held is first cut or filled to the length that the card reports. -/
def rewritePointer (i : Nat) (files : Reference.Block) (offset position pointer : Nat) :
    Work Unit := do
  let file ← .lift (Desk.fileOf files .iap)
  let size ← sizeOf file
  .lift (Desk.checkSlot size (offset + 1))
  .lift (Desk.checkPosition size position)
  let b ← .blockAt i
  let byte ← .lift (recordByte pointer)
  let record ← .demand
    (set? (resize ((b.pointer? offset).getD []) size.recordLen fillByte) position byte)
  writePointer i file offset record

/-- Sees to the pointer byte of the entry at `offset` when a value was added to `slot` or taken
away from it. -/
def relink (i : Nat) (files : Reference.Block) (linkage : Linkage) (offset slot : Nat)
    (old new : Text) : Work Unit :=
  match linkage with
  | .type1 => pure ()
  | .type2 position =>
    if old.isEmpty = new.isEmpty then pure ()
    else rewritePointer i files offset position (if new.isEmpty then 0 else slot)

/-- The record of a value for a file of this size, and the value that reads back from it. -/
def encodeValue (kind : FieldKind) (linkage : Linkage) (offset : Nat) (size : Geometry)
    (value : Text) : Work (Bytes × Text) := do
  let link ← .lift (Desk.backLink linkage offset)
  let record ← .demand (encodeField? kind size.recordLen value link)
  let record ← .lift record
  let stored ← .demand (decodeField? kind record)
  pure (record, stored)

def applyStored (kind : FieldKind) (offset : Nat) (stored : Text) (b : BlockState) : BlockState :=
  b.modifyEntry offset (·.setValues kind (if stored.isEmpty then [] else [stored]))

def editAt (i : Nat) (files : Reference.Block) (linkage : Linkage) (kind : FieldKind) (offset : Nat)
    (old new : Text) : Work Unit := do
  let file ← .lift (Desk.fileOf files (.ofKind kind))
  let b ← .blockAt i
  let slot ← .lift (b.resolveSlot kind linkage offset old)
  let size ← sizeOf file
  .lift (Desk.checkSlot size slot)
  let (record, stored) ← encodeValue kind linkage offset size new
  writeSlot i file kind slot record
  relink i files linkage offset slot old new
  .change i fun b => some (applyStored kind offset stored b)

def update (position : Nat) (old new : Text) (kind : FieldKind) : Work Unit := do
  let s ← get
  let place ← .demand (locate? s position)
  match place with
  | none => throw (.indexOutOfRange position)
  | some (i, offset) => do
    let table ← .lift s.heldTable
    let files ← .lift (Session.filesOf table i)
    editAt i files (table.linkage kind) kind offset old new

/-! ## Histories -/

def obey (s : Session) : Command → Option (Option Error × Session)
  | .load => outcomeOf (load.perform s)
  | .loadBlock i => outcomeOf ((loadBlock i).perform s)
  | .invalidate => some (none, s.invalidate)
  | .reset => some (none, s.reset)
  | .update position old new kind => outcomeOf ((update position old new kind).perform s)
where
  /-- The error of an outcome. -/
  outcomeOf {α : Type} (performed : Option (Except Error α × Session)) :
      Option (Option Error × Session) :=
    performed.map fun (outcome, s) => (Session.obey.refusal outcome, s)

def meet (s : Session) : Event → Option Session
  | .command command => (obey s command).map (·.2)
  | .fault op file => some (s.onCard (·.failNext op file))

def after (s : Session) (events : List Event) : Option Session := events.foldlM meet s

end UsimPhonebook.Checked
