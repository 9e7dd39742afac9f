import UsimPhonebook.Card.File
import UsimPhonebook.Card.Operation

/-! # Requests to the card

A request is one of the four operations with its arguments. `Request.Reply` is the type of what a
request gives when it succeeds.
-/

namespace UsimPhonebook

/-- What is asked of the card; record numbers start at 1. -/
inductive Request
  /-- every record of a file -/
  | readAll (file : FileId)
  /-- the records with these numbers, in this order, less those that do not exist -/
  | readSubset (file : FileId) (numbers : List Nat)
  /-- the record `number` becomes `data` -/
  | write (file : FileId) (number : Nat) (data : Bytes)
  /-- record length and record count of a file -/
  | size (file : FileId)
  deriving DecidableEq, Repr

namespace Request

abbrev Reply : Request → Type
  | readAll _ => List Bytes
  | readSubset _ _ => List Bytes
  | write _ _ _ => Unit
  | size _ => Geometry

def op : Request → Operation
  | readAll _ => .readAll
  | readSubset _ _ => .readSubset
  | write _ _ _ => .write
  | size _ => .size

def file : Request → FileId
  | readAll file => file
  | readSubset file _ => file
  | write file _ _ => file
  | size file => file

/-- What a file answers to a request, and the file afterwards. -/
def answer (f : RecordFile) : (request : Request) → Except TransportError request.Reply × RecordFile
  | readAll _ => (.ok f.records, f)
  | readSubset _ numbers => (.ok (f.select numbers), f)
  | write _ number data =>
    if data.length ≠ f.recordLen then (.error .lengthMismatch, f)
    else if (f.record? number).isNone then (.error (.recordOutOfRange number), f)
    else (.ok (), f.setRecord number data)
  | size _ => (.ok f.geometry, f)

end Request

end UsimPhonebook
