import UsimPhonebook.Bytes

/-! # Tag-length-value objects

An object is a tag other than `0x00` and `0xFF`, a length and that many bytes. A length below 128
is one byte; 128 to 255 is written as `0x81` and one byte. Anything else ends the objects of a
buffer.

* `Object.write` writes an object and `Object.read?` reads one from the front of a buffer.
* `Tlv.objects` reads all, `Tlv.leftover` is what they leave.
* `Reader` hands them out one by one and stays at its place once it has met the end.
-/

namespace UsimPhonebook.Tlv

structure Object where
  tag : UInt8
  value : Bytes
  deriving DecidableEq, Repr

/-- A tag that starts no object: unused space. -/
def isPadding (tag : UInt8) : Bool := tag == 0x00 || tag == 0xFF

/-- The first length byte when one more length byte follows. -/
def longLength : UInt8 := 0x81

/-- The length bytes of a value of at most 255 bytes. -/
def lengthBytes (n : Nat) : Bytes :=
  if n < 128 then [UInt8.ofNat n] else [longLength, UInt8.ofNat n]

namespace Object

def write (o : Object) : Bytes := o.tag :: lengthBytes o.value.length ++ o.value

/-- The object with the first `length` bytes of `rest`, and what follows it. -/
def take? (tag : UInt8) (length : Nat) (rest : Bytes) : Option (Object × Bytes) :=
  if length ≤ rest.length then some (⟨tag, rest.take length⟩, rest.drop length) else none

/-- The object at the front of a buffer, and what follows it. -/
def read? : Bytes → Option (Object × Bytes)
  | tag :: first :: rest =>
    if isPadding tag then none
    else if first < 0x80 then take? tag first.toNat rest
    else if first = longLength then
      match rest with
      | length :: rest => if length < 0x80 then none else take? tag length.toNat rest
      | [] => none
    else none
  | _ => none

end Object

/-- The objects of a buffer of which the first `skip` bytes are part of an object already read. -/
def objectsFrom : Nat → Bytes → List Object
  | _, [] => []
  | skip + 1, _ :: rest => objectsFrom skip rest
  | 0, first :: rest =>
    match Object.read? (first :: rest) with
    | none => []
    | some (o, left) => o :: objectsFrom (rest.length - left.length) rest

/-- The objects of a buffer, up to the first place where none starts. -/
def objects (buffer : Bytes) : List Object := objectsFrom 0 buffer

/-- The bytes that the objects of a buffer leave over. -/
def leftover (buffer : Bytes) : Bytes :=
  buffer.drop ((objects buffer).flatMap Object.write).length

/-- A place in a buffer from which objects are read one by one. -/
structure Reader where
  /-- bytes of the buffer that lie behind -/
  offset : Nat
  /-- bytes that lie ahead -/
  ahead : Bytes
  /-- set when no object was found ahead -/
  finished : Bool
  deriving DecidableEq, Repr

namespace Reader

def start (buffer : Bytes) : Reader := ⟨0, buffer, false⟩

def remaining (r : Reader) : Nat := r.ahead.length

/-- The next object; without one the reader keeps its place and is finished. -/
def next (r : Reader) : Option Object × Reader :=
  if r.finished then (none, r)
  else match Object.read? r.ahead with
    | none => (none, { r with finished := true })
    | some (o, left) =>
      (some o, { r with offset := r.offset + (r.ahead.length - left.length), ahead := left })

end Reader

end UsimPhonebook.Tlv
