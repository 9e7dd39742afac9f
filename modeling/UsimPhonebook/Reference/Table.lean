import UsimPhonebook.FileId
import UsimPhonebook.Reference.Tag
import UsimPhonebook.SortedMap
import UsimPhonebook.Tlv

/-! # The reference table

Each record of the reference file describes one block of the phonebook: the files that hold its
entries and their fields. A record holds containers, tagged `0xA8`, `0xA9` or `0xAA`, and each
child of a container names a file by tag and identifier.

* Where a record names a file twice, the later child counts (`Block.ofChildren`).
* A kind of field whose file is named inside a container `0xA9` is reached through the byte of the
  index-pointer record that has the place of the child. The place of the last such child of any
  record counts for the whole card (`linkageOf`); without one, record `n` of the field's file
  belongs to entry `n`.
-/

namespace UsimPhonebook

/-- How entries find their values of a kind. -/
inductive Linkage
  /-- value `n` belongs to entry `n` -/
  | type1
  /-- the byte at `offset` of the entry's index-pointer record names the value -/
  | type2 (offset : Nat)
  deriving DecidableEq, Repr

def Linkage.isType2 : Linkage → Bool
  | type1 => false
  | type2 _ => true

namespace Reference

/-- A child of a container: the container's tag, the place among its children, the child. -/
structure Child where
  container : UInt8
  ordinal : Nat
  object : Tlv.Object
  deriving DecidableEq, Repr

/-- The tag of the container whose children are linked through index-pointer records. -/
def pointedContainer : UInt8 := 0xA9

/-- A container of file names. -/
def isContainer (tag : UInt8) : Bool := tag == 0xA8 || tag == pointedContainer || tag == 0xAA

/-- The children of a container, numbered from 0. -/
def childrenOf (container : Tlv.Object) : List Child :=
  (Tlv.objects container.value).zipIdx.map fun (object, ordinal) =>
    { container := container.tag, ordinal, object }

def children (record : Bytes) : List Child :=
  ((Tlv.objects record).filter fun o => isContainer o.tag).flatMap childrenOf

/-- The file that a child names, if its tag is known and its value long enough. -/
def Child.file? (c : Child) : Option (FileTag × FileId) :=
  match FileTag.ofByte? c.object.tag, FileId.ofBytes? c.object.value with
  | some tag, some file => some (tag, file)
  | _, _ => none

/-- The place of a child that links a kind through index-pointer records. -/
def Child.pointerOffset? (kind : FieldKind) (c : Child) : Option Nat :=
  if c.container = pointedContainer ∧ c.object.tag = (FileTag.ofKind kind).byte then some c.ordinal
  else none

/-- One block of the phonebook: its number and its files. -/
structure Block where
  index : Nat
  files : SortedMap FileTag FileId := {}
  deriving DecidableEq, Repr

namespace Block

def file? (b : Block) (tag : FileTag) : Option FileId := b.files.find? tag

/-- Names a file; an older name of the same tag is forgotten. -/
def setFile (b : Block) (tag : FileTag) (file : FileId) : Block :=
  { b with files := b.files.insert tag file }

def addChild (b : Block) (c : Child) : Block :=
  match c.file? with
  | some (tag, file) => b.setFile tag file
  | none => b

def ofChildren (index : Nat) (cs : List Child) : Block := cs.foldl addChild { index }

end Block

def linkageStep (kind : FieldKind) (linkage : Linkage) (c : Child) : Linkage :=
  match c.pointerOffset? kind with
  | some offset => .type2 offset
  | none => linkage

def linkageOf (kind : FieldKind) (cs : List Child) : Linkage :=
  cs.foldl (linkageStep kind) .type1

/-- The blocks of the phonebook and the linkage of each kind. -/
structure Table where
  blocks : List Block
  email : Linkage
  anr : Linkage
  deriving DecidableEq, Repr

namespace Table

/-- The table that the records of the reference file describe. -/
def parse (records : List Bytes) : Table where
  blocks := records.zipIdx.map fun (record, index) => Block.ofChildren index (children record)
  email := linkageOf .email (records.flatMap children)
  anr := linkageOf .anr (records.flatMap children)

def linkage (t : Table) : FieldKind → Linkage
  | .email => t.email
  | .anr => t.anr

def block? (t : Table) (index : Nat) : Option Block := t.blocks[index]?

@[simp] theorem linkage_parse (records : List Bytes) (kind : FieldKind) :
    (parse records).linkage kind = linkageOf kind (records.flatMap children) := by
  cases kind <;> rfl

@[simp] theorem length_blocks_parse (records : List Bytes) :
    (parse records).blocks.length = records.length := by
  simp [parse]

end Table

end Reference

end UsimPhonebook
