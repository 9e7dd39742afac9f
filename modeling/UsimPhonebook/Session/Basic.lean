import UsimPhonebook.Session.EditBlock
import UsimPhonebook.Session.LoadBlock

/-! # Sessions

A session holds a channel to a card, the reference table once it is read, and the state of every
block. Entries have global positions: those of block 0 come first, then those of block 1, and so
on.

* `Session.load` reads what is not held yet and gives all entries; `Session.loadBlock` does so for
  one block.
* `Session.update` edits a field of the entry at a position.
* `Session.locate?` turns a global position into a block and a position in it;
  `Session.blockOffset` is the way back.
-/

namespace UsimPhonebook

structure Options where
  /-- the file that describes the phonebook -/
  referenceFile : FileId := .ofNat 0x4F30
  /-- whether the traffic is counted -/
  metered : Bool := false
  /-- whether index-pointer records read for one kind serve the other -/
  sharePointers : Bool := true
  deriving DecidableEq, Repr

structure Session where
  channel : Channel
  options : Options
  /-- the reference table, once it is read -/
  table : Option Reference.Table := none
  /-- the reference file was found to be empty -/
  absent : Bool := false
  blocks : List BlockState := []
  deriving DecidableEq, Repr

namespace Session

/-- A session on a card, with nothing read. -/
def start (card : Card) (options : Options) : Session where
  channel := { card, metered := options.metered }
  options

/-- The card as the session left it. -/
def card (s : Session) : Card := s.channel.card

def counters (s : Session) : Counters := s.channel.counters

/-- Does something to the card without a request of the session's own. -/
def onCard (s : Session) (f : Card → Card) : Session :=
  { s with channel := { s.channel with card := f s.channel.card } }

/-- Drops everything that was read. -/
def reset (s : Session) : Session := { s with table := none, absent := false, blocks := [] }

/-- Drops the entries of every block; the next load reads them again. -/
def invalidate (s : Session) : Session := { s with blocks := s.blocks.map BlockState.invalidate }

/-! ## Positions -/

/-- The loaded entries in global order. -/
def entries (s : Session) : List Entry := s.blocks.flatMap fun b => b.entries.getD []

def countIn (blocks : List BlockState) : Nat :=
  blocks.foldr (fun b count => b.entryCount + count) 0

@[simp] theorem countIn_cons (b : BlockState) (rest : List BlockState) :
    countIn (b :: rest) = b.entryCount + countIn rest := rfl

def entryCount (s : Session) : Nat := countIn s.blocks

theorem length_entries (s : Session) : s.entries.length = s.entryCount := by
  have length_of (b : BlockState) : (b.entries.getD []).length = b.entryCount := by
    unfold BlockState.entryCount
    cases b.entries <;> rfl
  unfold entries entryCount
  induction s.blocks with
  | nil => rfl
  | cons b rest ih => simp [length_of, ih]

def blockEntryCount (s : Session) (block : Nat) : Nat :=
  match s.blocks[block]? with
  | some b => b.entryCount
  | none => 0

/-- The global position of the first entry of a block. -/
def blockOffset (s : Session) (block : Nat) : Nat :=
  countIn (s.blocks.take block)

/-- The block that holds a position counted from the first of these blocks, and the position in
it. -/
def locateIn : List BlockState → Nat → Option (Nat × Nat)
  | [], _ => none
  | b :: rest, position =>
    if position < b.entryCount then some (0, position)
    else (locateIn rest (position - b.entryCount)).map fun (block, offset) => (block + 1, offset)

def locate? (s : Session) (position : Nat) : Option (Nat × Nat) := locateIn s.blocks position

def entryAt? (s : Session) (position : Nat) : Option Entry :=
  match s.locate? position with
  | some (block, offset) => s.blocks[block]?.bind (·.entryAt? offset)
  | none => none

/-! ## Actions -/

/-- Does the work of a desk on one block. -/
def atBlock {α : Type} (block : Nat) (work : Action Desk α) : Action Session α :=
  .of fun s =>
    match s.blocks[block]? with
    | none => (.error (.noSuchBlock block), s)
    | some b =>
      let (result, desk) := work.perform ⟨s.channel, b⟩
      (result, { s with channel := desk.channel, blocks := s.blocks.set block desk.block })

def heldTable (s : Session) : Except Error Reference.Table :=
  match s.table with
  | some table => .ok table
  | none => .error (.notLoaded .reference)

def filesOf (table : Reference.Table) (block : Nat) : Except Error Reference.Block :=
  match table.block? block with
  | some files => .ok files
  | none => .error (.noSuchBlock block)

/-- Keeps a reference table; nothing of its blocks is read yet. -/
def keepTable (table : Reference.Table) (s : Session) : Session :=
  { s with table := some table, blocks := table.blocks.map fun _ => ({} : BlockState) }

/-- Reads the reference table. An empty reference file is remembered and not read again. -/
def readTable : Action Session Reference.Table :=
  .of fun s =>
    match s.channel.ask (.readAll s.options.referenceFile) with
    | (.error e, channel) => (.error e, { s with channel })
    | (.ok [], channel) => (.error .referenceAbsent, { s with channel, absent := true })
    | (.ok records, channel) =>
      let table := Reference.Table.parse records
      (.ok table, keepTable table { s with channel })

/-- The reference table, which is read unless it is held. -/
def loadTable : Action Session Reference.Table := do
  let s ← get
  if s.absent then throw .referenceAbsent
  else
    match s.table with
    | some table => pure table
    | none => readTable

theorem perform_loadTable (s : Session) :
    loadTable.perform s =
      if s.absent then (.error .referenceAbsent, s)
      else
        match s.table with
        | some table => (.ok table, s)
        | none => readTable.perform s := by
  unfold loadTable
  rw [Action.perform_bind, Action.perform_get]
  by_cases h : s.absent
  · simp [h]
  · cases ht : s.table <;> simp [h, ht]

/-- Reads one block and joins its fields, unless its entries are held. -/
def loadBlock (block : Nat) : Action Session Unit := do
  let table ← loadTable
  let s ← get
  match s.blocks[block]? with
  | none => throw (.noSuchBlock block)
  | some state =>
    if state.entries.isSome then pure ()
    else do
      let files ← .lift (filesOf table block)
      atBlock block (Desk.load files table s.options.sharePointers)

/-- Reads these blocks, each unless it is held; one that cannot be read is left out. -/
def loadBlocks : List Nat → Action Session Unit
  | [] => pure ()
  | block :: rest => do
    (loadBlock block).ignoringFailure
    loadBlocks rest

@[simp] theorem perform_loadBlocks_nil (s : Session) :
    (loadBlocks []).perform s = (.ok (), s) := rfl

@[simp] theorem perform_loadBlocks_cons (block : Nat) (rest : List Nat) (s : Session) :
    (loadBlocks (block :: rest)).perform s =
      (loadBlocks rest).perform ((loadBlock block).perform s).2 := by
  rw [loadBlocks, Action.perform_bind]
  rfl

/-- Reads every block that is not held and gives all entries. A block that cannot be read is left
out, and tried again by the next load. -/
def load : Action Session (List Entry) := do
  let table ← loadTable
  loadBlocks (List.range table.blocks.length)
  let s ← get
  pure s.entries

/-- Replaces a value of the entry at a global position: an empty `old` adds one, an empty `new`
takes one away. -/
def update (position : Nat) (old new : Text) (kind : FieldKind) : Action Session Unit := do
  let s ← get
  match s.locate? position with
  | none => throw (.indexOutOfRange position)
  | some (block, offset) => do
    let table ← .lift s.heldTable
    let files ← .lift (filesOf table block)
    atBlock block (Desk.edit files (table.linkage kind) kind offset old new)

end Session

end UsimPhonebook
