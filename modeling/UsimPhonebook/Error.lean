import UsimPhonebook.Card.Operation
import UsimPhonebook.Reference.Tag

/-! # Errors

Every cause for which a phonebook request is refused, and its wording (`Error.message`).
-/

namespace UsimPhonebook

/-- Records that an operation needs and the session does not hold. -/
inductive Missing
  | reference
  | pointers
  | field (kind : FieldKind)
  deriving DecidableEq, Repr

def Missing.name : Missing → String
  | reference => "reference file"
  | pointers => "index-pointer"
  | field kind => kind.name

inductive BadArgument
  | fileId
  | recordText
  | additionalNumberRecord
  | recordNumber
  deriving DecidableEq, Repr

def BadArgument.message : BadArgument → String
  | fileId => "file id is not hex"
  | recordText => "record is not hex"
  | additionalNumberRecord => "additional number record too short"
  | recordNumber => "record number exceeds one byte"

inductive Error
  /-- a card request failed -/
  | transport (cause : TransportError)
  /-- the reference file holds no record -/
  | referenceAbsent
  | noSuchBlock (block : Nat)
  | indexOutOfRange (index : Nat)
  /-- the block names no file for the tag -/
  | missingFile (block : Nat) (tag : UInt8)
  | notLoaded (records : Missing)
  | noFreeSlot
  | noLinkedSlot
  /-- the record is not one of the `count` records of its file -/
  | slotOutOfRange (slot count : Nat)
  | unencodable (kind : FieldKind)
  /-- the pointer byte lies beyond the index-pointer record -/
  | pointerBeyondRecord
  | invalid (argument : BadArgument)
  deriving DecidableEq, Repr

def Error.message : Error → String
  | transport cause => "transport: " ++ cause.message
  | referenceAbsent => "phonebook reference file absent"
  | noSuchBlock block => s!"no phonebook block {block}"
  | indexOutOfRange index => s!"address index {index} out of range"
  | missingFile block tag =>
    s!"block {block} has no file for tag 0x" ++ String.ofList (Hex.byte tag)
  | notLoaded records => records.name ++ " records not loaded"
  | noFreeSlot => "no free auxiliary slot"
  | noLinkedSlot => "no linked auxiliary slot to replace"
  | slotOutOfRange slot count => s!"slot {slot} outside 1..={count}"
  | unencodable kind => "value not encodable as " ++ kind.name
  | pointerBeyondRecord => "corruption: index-pointer offset beyond record"
  | invalid argument => "invalid argument: " ++ argument.message

end UsimPhonebook
