import UsimPhonebook.Card.Basic
import UsimPhonebook.Ticket

/-! # Requests under way

A request is sent without waiting for its answer: whoever sends it gets the number of a ticket and
may wait on it at any later time, in any order. The card answers one request at a time, in the
order in which they were sent.

* `Queue.send` sends a request, `Queue.serveNext` lets the card answer the oldest open one, and
  `Queue.wait` takes the outcome of a ticket, which is there once.
* `Card.serveAll` is the order of events without a queue: every request is answered at once.
* `Queue.run` lets these things happen in any order, and gives the outcomes that were waited for.
-/

namespace UsimPhonebook

structure Answered where
  request : Request
  outcome : Except Error request.Reply

namespace Card

def serveAll (card : Card) : List Request → List Answered × Card
  | [] => ([], card)
  | request :: rest =>
    let (outcome, card) := card.serve request
    let (answers, card) := card.serveAll rest
    (⟨request, outcome.mapError .transport⟩ :: answers, card)

@[simp] theorem serveAll_nil (card : Card) : card.serveAll [] = ([], card) := rfl

@[simp] theorem length_serveAll (card : Card) (requests : List Request) :
    (card.serveAll requests).1.length = requests.length := by
  induction requests generalizing card with
  | nil => rfl
  | cons request rest ih => simp [serveAll, ih]

/-- Requests that follow others are answered by the card that those leave. -/
theorem serveAll_append (card : Card) (first second : List Request) :
    card.serveAll (first ++ second) =
      ((card.serveAll first).1 ++ ((card.serveAll first).2.serveAll second).1,
        ((card.serveAll first).2.serveAll second).2) := by
  induction first generalizing card with
  | nil => rfl
  | cons request rest ih => simp [serveAll, ih]

end Card

/-- A request that was sent, and the exchange through which its outcome comes. -/
structure Sent where
  request : Request
  exchange : Exchange request.Reply := .pending

namespace Sent

def serve (s : Sent) (card : Card) : Sent × Card :=
  let (outcome, card) := card.serve s.request
  (⟨s.request, (s.exchange.step (.complete (outcome.mapError .transport))).2⟩, card)

/-- Waits for the outcome; without one everything stays as it is. -/
def wait (s : Sent) : Option Answered × Sent :=
  match s.exchange.step .wait with
  | (.outcome outcome, exchange) => (some ⟨s.request, outcome⟩, ⟨s.request, exchange⟩)
  | (_, exchange) => (none, ⟨s.request, exchange⟩)

end Sent

/-- A card and the requests that were sent to it. The place of a request is its ticket, and those
before `served` have been answered. -/
structure Queue where
  card : Card
  sent : List Sent := []
  served : Nat := 0

namespace Queue

def requests (q : Queue) : List Request := q.sent.map (·.request)

/-- Sends a request; gives its ticket. -/
def send (q : Queue) (request : Request) : Nat × Queue :=
  (q.sent.length, { q with sent := q.sent ++ [{ request }] })

/-- Lets the card answer the oldest open request, if there is one. -/
def serveNext (q : Queue) : Queue :=
  match q.sent[q.served]? with
  | none => q
  | some s =>
    let (s, card) := s.serve q.card
    { card, sent := q.sent.set q.served s, served := q.served + 1 }

/-- Waits on a ticket: gives the outcome if it is there and was not taken before. -/
def wait (q : Queue) (ticket : Nat) : Option Answered × Queue :=
  match q.sent[ticket]? with
  | none => (none, q)
  | some s =>
    let (answer, s) := s.wait
    (answer, { q with sent := q.sent.set ticket s })

@[simp] theorem requests_send (q : Queue) (request : Request) :
    (q.send request).2.requests = q.requests ++ [request] := by
  simp [requests, send]

theorem map_request_set {sent : List Sent} {i : Nat} {s later : Sent} (here : sent[i]? = some s)
    (same : later.request = s.request) :
    (sent.set i later).map (·.request) = sent.map (·.request) := by
  have there : (sent.map (·.request))[i]? = some s.request := by simp [here]
  obtain ⟨inside, here⟩ := List.getElem?_eq_some_iff.1 there
  rw [List.map_set, same, ← here]
  exact List.set_getElem_self inside

@[simp] theorem requests_serveNext (q : Queue) : q.serveNext.requests = q.requests := by
  unfold serveNext
  split
  · rfl
  · next s here => exact map_request_set here rfl

@[simp] theorem requests_wait (q : Queue) (ticket : Nat) :
    (q.wait ticket).2.requests = q.requests := by
  unfold wait
  split
  · rfl
  · next s here =>
    refine map_request_set here ?_
    unfold Sent.wait
    split <;> rfl

/-! ## Any order of events -/

inductive Move
  /-- a request is sent -/
  | send (request : Request)
  /-- the card answers the oldest open request -/
  | serve
  /-- somebody waits on a ticket -/
  | wait (ticket : Nat)

/-- An outcome that a wait has given, and the ticket that was waited on. -/
structure Delivery where
  ticket : Nat
  answer : Answered

def move (q : Queue) : Move → Option Delivery × Queue
  | .send request => (none, (q.send request).2)
  | .serve => (none, q.serveNext)
  | .wait ticket =>
    let (answer, q) := q.wait ticket
    (answer.map (⟨ticket, ·⟩), q)

def run (q : Queue) : List Move → List Delivery × Queue
  | [] => ([], q)
  | m :: rest =>
    let (delivery, q) := q.move m
    let (deliveries, q) := q.run rest
    (delivery.toList ++ deliveries, q)

def Move.requests (moves : List Move) : List Request :=
  moves.filterMap fun
    | .send request => some request
    | _ => none

@[simp] theorem run_nil (q : Queue) : q.run [] = ([], q) := rfl

theorem run_cons (q : Queue) (m : Move) (rest : List Move) :
    q.run (m :: rest) =
      ((q.move m).1.toList ++ ((q.move m).2.run rest).1, ((q.move m).2.run rest).2) := rfl

theorem run_append (q : Queue) (first second : List Move) :
    q.run (first ++ second) =
      ((q.run first).1 ++ ((q.run first).2.run second).1, ((q.run first).2.run second).2) := by
  induction first generalizing q with
  | nil => rfl
  | cons m rest ih => simp [run_cons, ih]

theorem requests_run (q : Queue) (moves : List Move) :
    (q.run moves).2.requests = q.requests ++ Move.requests moves := by
  induction moves generalizing q with
  | nil => simp [Move.requests]
  | cons m rest ih =>
    rw [run_cons]
    dsimp only
    rw [ih]
    cases m with
    | send request => simp [move, Move.requests]
    | serve => simp [move, Move.requests]
    | wait ticket => simp [move, Move.requests]

end Queue

end UsimPhonebook
