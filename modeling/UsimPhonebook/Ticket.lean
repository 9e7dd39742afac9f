import UsimPhonebook.Error

/-! # Completion tickets

Who sends a request keeps a ticket, who serves it a completer. The completer delivers one outcome;
one that is dropped delivers the failure `dropped`. The first outcome delivered stays, and the
ticket is used up by the wait that takes it.

An `Exchange` is the shared state of such a pair, and a `Step` is what either side does next. A wait
before an outcome is there is blocked and leaves everything as it is.
-/

namespace UsimPhonebook

/-- The shared state of a completer and a ticket: which halves are still held, and the outcome
that was delivered and not yet taken. -/
structure Exchange (α : Type) where
  completer : Bool := false
  ticket : Bool := false
  outcome : Option (Except Error α) := none

namespace Exchange

variable {α : Type}

/-- A completer and its ticket, with nothing delivered. -/
def pending : Exchange α := { completer := true, ticket := true }

/-- A ticket that holds its outcome already. -/
def ready (outcome : Except Error α) : Exchange α := { ticket := true, outcome := some outcome }

/-- Delivers an outcome unless there is one. -/
def deliver (x : Exchange α) (outcome : Except Error α) : Exchange α :=
  { x with outcome := x.outcome.or (some outcome) }

inductive Step (α : Type)
  /-- the producer delivers an outcome, which uses up the completer -/
  | complete (outcome : Except Error α)
  /-- the producer gives up the completer -/
  | drop
  /-- the consumer asks whether an outcome is there -/
  | poll
  /-- the consumer takes the outcome, which uses up the ticket -/
  | wait

/-- What a step gives to the side that does it. -/
inductive Answer (α : Type)
  | done
  | noCompleter
  | noTicket
  | polled (complete : Bool)
  /-- no outcome is there yet -/
  | blocked
  | outcome (outcome : Except Error α)

def step (x : Exchange α) : Step α → Answer α × Exchange α
  | .complete outcome =>
    if x.completer then (.done, { x.deliver outcome with completer := false })
    else (.noCompleter, x)
  | .drop =>
    if x.completer then
      (.done, { x.deliver (.error (.transport .dropped)) with completer := false })
    else (.done, x)
  | .poll => if x.ticket then (.polled x.outcome.isSome, x) else (.noTicket, x)
  | .wait =>
    if x.ticket then
      match x.outcome with
      | some outcome => (.outcome outcome, { x with ticket := false, outcome := none })
      | none => (.blocked, x)
    else (.noTicket, x)

def run (x : Exchange α) : List (Step α) → List (Answer α) × Exchange α
  | [] => ([], x)
  | s :: rest =>
    let (answer, x) := x.step s
    let (answers, x) := x.run rest
    (answer :: answers, x)

end Exchange

end UsimPhonebook
