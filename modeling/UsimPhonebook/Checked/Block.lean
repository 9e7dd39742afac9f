import UsimPhonebook.Checked.Codec
import UsimPhonebook.Report
import UsimPhonebook.Session.EditBlock

/-! # Stores, joins and positions by index

What a session does with the records that it holds, as it goes to work on them.

* A store is kept as two vectors, the records and their flags. A write goes to the same index of
  both; a load starts both, and a join clears and sets flags alone (`Shelf`).
* A join takes the slot that a pointer names, which counts from 1, and looks one place before it.
* A position is looked up by going through the blocks with the position at which each one starts.
  What is asked about the entry there is asked of the block with the number that was found.

The joins and the questions have the names of their counterparts in the session.
-/

namespace UsimPhonebook.Checked

/-! ## Stores -/

/-- Cut off, or filled up with an item, to a length. -/
def resize {α : Type} (items : List α) (length : Nat) (item : α) : List α :=
  items.take length ++ List.replicate (length - items.length) item

/-- The records of a store beside their flags. -/
structure Shelf where
  records : List Bytes
  flags : List Bool
  deriving DecidableEq, Repr

namespace Shelf

def ofStore (s : FieldStore) : Shelf := ⟨s.records, s.flags⟩

/-- The store of two vectors that are of one length. -/
def store? (s : Shelf) : Option FieldStore :=
  if s.flags.length = s.records.length then some ⟨List.zipWith FieldSlot.mk s.records s.flags⟩
  else none

/-- Records that were just read, with a clear flag beside each of them. -/
def new (records : List Bytes) : Shelf := ⟨records, List.replicate records.length false⟩

/-- Sets the flag at an index, if there is one. -/
def markUsed (s : Shelf) (index : Nat) : Shelf := { s with flags := s.flags.set index true }

def clearFlags (s : Shelf) : Shelf := { s with flags := s.flags.map fun _ => false }

/-- Both vectors grow if the records do not reach up to an index. -/
def reaching (s : Shelf) (index recordLen : Nat) : Shelf :=
  if s.records.length ≤ index then
    ⟨resize s.records (index + 1) (Bytes.blank recordLen), resize s.flags (index + 1) false⟩
  else s

/-- Writes a record and its flag. -/
def put? (s : Shelf) (index : Nat) (record : Bytes) : Option Shelf := do
  let s := s.reaching index record.length
  let flags ← set? s.flags index !Bytes.isBlank record
  let records ← set? s.records index record
  pure ⟨records, flags⟩

end Shelf

def put? (s : FieldStore) (index : Nat) (record : Bytes) : Option FieldStore := do
  let shelf ← (Shelf.ofStore s).put? index record
  shelf.store?

/-- Puts a record with a number into the store of a kind, if it is loaded. -/
def putRecord? (kind : FieldKind) (slot : Nat) (record : Bytes) (b : BlockState) :
    Option BlockState :=
  match b.store kind with
  | some store => do
    let index ← sub? slot 1
    let store ← put? store index record
    pure (b.setStore kind store)
  | none => some b

/-! ## Joins -/

def linkedSlot? (b : BlockState) (linkage : Linkage) (offset : Nat) : Option (Option Nat) :=
  match linkage with
  | .type1 => some (some offset)
  | .type2 position =>
    match (b.pointer? offset).bind (pointedSlot? · position) with
    | some slot => (sub? slot 1).map some
    | none => some none

def linkedValue? (b : BlockState) (kind : FieldKind) (linkage : Linkage) (store : FieldStore)
    (offset : Nat) : Option (Option (Nat × Text)) := do
  match ← linkedSlot? b linkage offset with
  | none => pure none
  | some index =>
    match store.record? index with
    | none => pure none
    | some record => do
      let value ← decodeField? kind record
      pure (if value = [] then none else some (index, value))

def joinKind? (b : BlockState) (kind : FieldKind) (linkage : Linkage) : Option BlockState :=
  match b.entries, b.store kind with
  | none, _ => some b
  | some entries, none => some { b with entries := some (entries.map (·.setValues kind [])) }
  | some entries, some store => do
    let linked ← (List.range entries.length).mapM (linkedValue? b kind linkage store)
    let inUse := linked.filterMap (·.map (·.1))
    let store ← (inUse.foldl Shelf.markUsed (Shelf.ofStore store).clearFlags).store?
    pure { b.setStore kind store with
      entries := some (List.zipWith
        (fun entry value => entry.setValues kind (value.map (·.2)).toList) entries linked) }

def join? (table : Reference.Table) (b : BlockState) : Option BlockState :=
  FieldKind.all.foldlM (fun b kind => joinKind? b kind (table.linkage kind)) b

/-! ## Positions -/

/-- The block that holds a position, from a block on that has number `index` and starts at
`start`. -/
def locateFrom? : List BlockState → Nat → Nat → Nat → Option (Option (Nat × Nat))
  | [], _, _, _ => some none
  | b :: rest, index, start, position =>
    if position < start + b.entryCount then do
      let offset ← sub? position start
      pure (some (index, offset))
    else locateFrom? rest (index + 1) (start + b.entryCount) position

def locate? (s : Session) (position : Nat) : Option (Option (Nat × Nat)) :=
  locateFrom? s.blocks 0 0 position

def entryAt? (s : Session) (position : Nat) : Option (Option Entry) := do
  match ← locate? s position with
  | none => pure none
  | some (block, offset) => do
    let b ← s.blocks[block]?
    pure (b.entryAt? offset)

def entryReport? (s : Session) (position : Nat) : Option (Option EntryReport) := do
  match ← locate? s position with
  | none => pure none
  | some (block, _) => do
    match ← entryAt? s position with
    | none => pure none
    | some entry =>
      pure (some
        { index := position, block, file := entry.file.text, record := entry.recordNumber,
          alpha := entry.alpha, number := entry.number, emails := entry.emails,
          additionalNumbers := entry.additionalNumbers })

def listReport? (s : Session) (nonEmpty : Bool) : Option (List EntryReport) := do
  let reports ← (List.range s.entryCount).mapM (entryReport? s)
  pure ((reports.filterMap id).filter fun report =>
    !nonEmpty || !report.alpha.isEmpty || !report.number.isEmpty)

def freeForEntry? (s : Session) (kind : FieldKind) (position : Nat) : Option Nat := do
  match ← locate? s position with
  | none => pure 0
  | some (block, offset) => do
    let b ← s.blocks[block]?
    pure (s.freeForOffset kind block b offset)

end UsimPhonebook.Checked
