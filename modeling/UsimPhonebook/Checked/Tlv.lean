import UsimPhonebook.Checked.Access
import UsimPhonebook.Reference.Table

/-! # Reading objects by position

A cursor is a place in a buffer. It asks for every byte and every slice that it takes, and a missing
one is the end of the objects; what it may not do is to go past the end of the buffer, where
`Cursor.remaining?` has no answer.

The reference table is read by two nested cursors. `Cursor.objects?` lets a cursor run and has no
result if it has not met the end after so many calls.
-/

namespace UsimPhonebook.Checked

/-- A place in a buffer from which objects are read one by one. -/
structure Cursor where
  buffer : Bytes
  offset : Nat := 0
  /-- set when no object was found -/
  finished : Bool := false
  deriving DecidableEq, Repr

namespace Cursor

def remaining? (c : Cursor) : Option Nat := sub? c.buffer.length c.offset

/-- The length of a value, and of the tag and the length in front of it, by the bytes behind the
tag. -/
def header? : Bytes → Option (Nat × Nat)
  | [] => none
  | first :: rest =>
    if first < 0x80 then some (first.toNat, 2)
    else if first = Tlv.longLength then
      match rest with
      | [] => none
      | length :: _ => if length < 0x80 then none else some (length.toNat, 3)
    else none

/-- The object ahead and the position where it ends. -/
def object? (c : Cursor) : Option (Tlv.Object × Nat) :=
  match slice? c.buffer c.offset c.buffer.length with
  | none | some [] => none
  | some (tag :: behind) =>
    if Tlv.isPadding tag then none
    else do
      let (length, header) ← header? behind
      let start := c.offset + header
      let value ← slice? c.buffer start (start + length)
      pure (⟨tag, value⟩, start + length)

/-- The next object; without one the cursor keeps its place and is finished. -/
def next (c : Cursor) : Option Tlv.Object × Cursor :=
  if c.finished then (none, c)
  else match c.object? with
    | none => (none, { c with finished := true })
    | some (o, stop) => (some o, { c with offset := stop })

/-- The cursor after `n` calls for the next object. -/
def after (c : Cursor) : Nat → Cursor
  | 0 => c
  | n + 1 => c.next.2.after n

/-- The objects from the cursor on, if it meets the end within so many calls. -/
def objects? : Nat → Cursor → Option (List Tlv.Object)
  | 0, _ => none
  | calls + 1, c =>
    match c.next with
    | (none, _) => some []
    | (some o, c) => (objects? calls c).map (o :: ·)

end Cursor

/-- The objects of a buffer; each takes a byte at least. -/
def objects? (buffer : Bytes) : Option (List Tlv.Object) :=
  Cursor.objects? (buffer.length + 1) { buffer }

def childrenOf? (container : Tlv.Object) : Option (List Reference.Child) := do
  let objects ← objects? container.value
  pure (objects.zipIdx.map fun (object, ordinal) => { container := container.tag, ordinal, object })

def children? (record : Bytes) : Option (List Reference.Child) := do
  let objects ← objects? record
  let children ← (objects.filter fun o => Reference.isContainer o.tag).mapM childrenOf?
  pure children.flatten

def parse? (records : List Bytes) : Option Reference.Table := do
  let children ← records.mapM children?
  pure
    { blocks := children.zipIdx.map fun (cs, index) => Reference.Block.ofChildren index cs
      email := Reference.linkageOf .email children.flatten
      anr := Reference.linkageOf .anr children.flatten }

end UsimPhonebook.Checked
