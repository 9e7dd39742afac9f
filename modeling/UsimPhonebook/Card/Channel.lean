import UsimPhonebook.Card.Basic
import UsimPhonebook.Error
import UsimPhonebook.Traffic

/-! # The channel to the card

A session talks to its card through a channel, which counts what goes over it. Without a meter the
counters stay at zero.
-/

namespace UsimPhonebook

/-- A card and the counters of what is asked of it. -/
structure Channel where
  card : Card
  metered : Bool := true
  counters : Counters := {}
  deriving DecidableEq, Repr

namespace Channel

/-- Counts an event if there is a meter. -/
def note (c : Channel) (event : TrafficEvent) : Channel :=
  if c.metered then { c with counters := c.counters.record event } else c

def ask (c : Channel) (request : Request) : Except Error request.Reply × Channel :=
  let (outcome, card) := c.card.serve request
  (outcome.mapError .transport, { c with card }.note (.roundTrip request.op outcome.toBool))

@[simp] theorem card_note (c : Channel) (event : TrafficEvent) : (c.note event).card = c.card := by
  unfold note; split <;> rfl

@[simp] theorem card_ask (c : Channel) (request : Request) :
    (c.ask request).2.card = (c.card.serve request).2 := by
  simp [ask]

end Channel

end UsimPhonebook
