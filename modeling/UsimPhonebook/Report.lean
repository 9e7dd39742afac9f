import UsimPhonebook.Session.Capacity

/-! # Reports

What a session shows of itself: its entries, its free slots, and its reference table.
-/

namespace UsimPhonebook

structure EntryReport where
  index : Nat
  block : Nat
  /-- the address file, in hexadecimal -/
  file : Text
  record : Nat
  alpha : Text
  number : Text
  emails : List Text
  additionalNumbers : List Text
  deriving DecidableEq, Repr

/-- The free slots of a kind; `total` is `none` where there is no bound. -/
structure KindCapacity where
  linkage : Linkage
  total : Option Nat
  blocks : List Nat
  deriving DecidableEq, Repr

structure CapacityReport where
  email : KindCapacity
  anr : KindCapacity
  deriving DecidableEq, Repr

/-- A block of the reference table: its entries and its files by name, in order of name. -/
structure BlockReport where
  index : Nat
  entries : Nat
  files : List (Text × Text)
  deriving DecidableEq, Repr

structure TableReport where
  email : Linkage
  anr : Linkage
  blocks : List BlockReport
  deriving DecidableEq, Repr

namespace Session

def entryReport? (s : Session) (position : Nat) : Option EntryReport :=
  match s.locate? position, s.entryAt? position with
  | some (block, _), some entry =>
    some { index := position, block, file := entry.file.text, record := entry.recordNumber,
           alpha := entry.alpha, number := entry.number, emails := entry.emails,
           additionalNumbers := entry.additionalNumbers }
  | _, _ => none

/-- The reports of all entries, or of those alone that have a name or a number. -/
def listReport (s : Session) (nonEmpty : Bool) : List EntryReport :=
  ((List.range s.entryCount).filterMap s.entryReport?).filter fun report =>
    !nonEmpty || !report.alpha.isEmpty || !report.number.isEmpty

def kindCapacity (s : Session) (kind : FieldKind) : KindCapacity where
  linkage := s.linkage kind
  total := if s.freeCount kind = unbounded then none else some (s.freeCount kind)
  blocks :=
    match s.table with
    | some table => (List.range table.blocks.length).map (s.freeInBlock kind)
    | none => []

def capacityReport (s : Session) : CapacityReport := ⟨s.kindCapacity .email, s.kindCapacity .anr⟩

/-- The files of a block by name, in order of name. -/
def fileReport (block : Reference.Block) : List (Text × Text) :=
  (SortedMap.ofList (block.files.items.map fun (tag, file) => (tag.name.toList, file.text))).items

def tableReport? (s : Session) : Option TableReport :=
  s.table.map fun table =>
    { email := table.email, anr := table.anr,
      blocks := table.blocks.map fun block =>
        { index := block.index, entries := s.blockEntryCount block.index,
          files := fileReport block } }

end Session

end UsimPhonebook
