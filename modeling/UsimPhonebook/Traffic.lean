import UsimPhonebook.Card.Operation
import UsimPhonebook.Reference.Tag

/-! # Traffic counters

What a session counts: the card requests by operation, how many of them failed, and the records
that updates have written.
-/

namespace UsimPhonebook

/-- Something that is counted. -/
inductive TrafficEvent
  /-- a card request came back -/
  | roundTrip (op : Operation) (succeeded : Bool)
  /-- an update wrote the record of a field -/
  | slotWritten (kind : FieldKind)
  /-- an update rewrote an index-pointer record -/
  | pointerRewritten
  deriving DecidableEq, Repr

structure Counters where
  readsAll : Nat := 0
  readsSubset : Nat := 0
  writes : Nat := 0
  sizeQueries : Nat := 0
  failures : Nat := 0
  emailSlotsWritten : Nat := 0
  anrSlotsWritten : Nat := 0
  pointerRewrites : Nat := 0
  deriving DecidableEq, Repr

namespace Counters

def addRequest (c : Counters) : Operation → Counters
  | .readAll => { c with readsAll := c.readsAll + 1 }
  | .readSubset => { c with readsSubset := c.readsSubset + 1 }
  | .write => { c with writes := c.writes + 1 }
  | .size => { c with sizeQueries := c.sizeQueries + 1 }

def record (c : Counters) : TrafficEvent → Counters
  | .roundTrip op true => c.addRequest op
  | .roundTrip op false => { c.addRequest op with failures := c.failures + 1 }
  | .slotWritten .email => { c with emailSlotsWritten := c.emailSlotsWritten + 1 }
  | .slotWritten .anr => { c with anrSlotsWritten := c.anrSlotsWritten + 1 }
  | .pointerRewritten => { c with pointerRewrites := c.pointerRewrites + 1 }

def roundTrips (c : Counters) : Nat := c.readsAll + c.readsSubset + c.writes + c.sizeQueries

def recordAll (c : Counters) (events : List TrafficEvent) : Counters := events.foldl record c

end Counters

end UsimPhonebook
