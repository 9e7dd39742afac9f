import UsimPhonebook.Ticket

/-! # Two threads at a ticket

A completer and its ticket are mostly in different threads. Each thread looks at the exchange under
a lock, so what it does there is one step of the exchange, and between two steps of one thread the
other one may do anything.

* To complete takes two turns of the producer: it delivers the outcome, and then drops the
  completer, which is used up by then.
* To wait takes as many turns of the consumer as it needs: it looks for the outcome, and where there
  is none it falls asleep in the same turn, so that nothing is delivered in between. Whoever puts an
  outcome in place wakes it, and it looks again. It may also wake up without a cause.

`Handover.run` is what a list of turns leads to. A turn that its thread cannot take does nothing, so
every list is an interleaving of the two threads.
-/

namespace UsimPhonebook

/-- How far the producer is. -/
inductive Producer
  /-- it holds the completer -/
  | holding
  /-- it has delivered an outcome, and the completer is still to be dropped -/
  | leaving
  | gone
  deriving DecidableEq, Repr

/-- How far the consumer is. -/
inductive Consumer (α : Type)
  /-- it has not begun to wait -/
  | idle
  /-- it waits, and is about to look for the outcome -/
  | looking
  /-- it waits, and sleeps -/
  | asleep
  /-- the wait has returned -/
  | returned (outcome : Except Error α)

/-- A thread that sleeps is about to look; any other one goes on as before. -/
def Consumer.wake {α : Type} : Consumer α → Consumer α
  | asleep => looking
  | consumer => consumer

/-- An exchange and the two threads that use it. -/
structure Handover (α : Type) where
  exchange : Exchange α
  producer : Producer
  consumer : Consumer α

inductive Turn (α : Type)
  /-- the producer delivers an outcome -/
  | complete (outcome : Except Error α)
  /-- the producer drops the completer, used up or not -/
  | drop
  /-- the consumer asks whether an outcome is there -/
  | poll
  /-- the consumer begins to wait -/
  | wait
  /-- the consumer, waiting, looks for the outcome -/
  | look
  /-- the consumer, asleep, wakes up without a cause -/
  | rouse

namespace Handover

variable {α : Type}

/-- A new completer and its ticket, each in its thread. -/
def pending : Handover α := ⟨.pending, .holding, .idle⟩

/-- A ticket that holds its outcome already; there is no producer. -/
def ready (outcome : Except Error α) : Handover α := ⟨.ready outcome, .gone, .idle⟩

/-- A step of the producer at the exchange. It wakes the consumer if it puts an outcome in place. -/
def produce (h : Handover α) (s : Exchange.Step α) : Handover α :=
  let x := (h.exchange.step s).2
  { h with
    exchange := x
    consumer :=
      if h.exchange.outcome.isNone && x.outcome.isSome then h.consumer.wake else h.consumer }

def turn (h : Handover α) : Turn α → Handover α
  | .complete outcome =>
    match h.producer with
    | .holding => { h.produce (.complete outcome) with producer := .leaving }
    | _ => h
  | .drop =>
    match h.producer with
    | .gone => h
    | _ => { h.produce .drop with producer := .gone }
  | .poll => h
  | .wait =>
    match h.consumer with
    | .idle => { h with consumer := .looking }
    | _ => h
  | .look =>
    match h.consumer with
    | .looking =>
      match h.exchange.step .wait with
      | (.outcome outcome, x) => { h with exchange := x, consumer := .returned outcome }
      | (_, x) => { h with exchange := x, consumer := .asleep }
    | _ => h
  | .rouse => { h with consumer := h.consumer.wake }

def run (h : Handover α) (turns : List (Turn α)) : Handover α := turns.foldl turn h

@[simp] theorem run_nil (h : Handover α) : h.run [] = h := rfl

@[simp] theorem run_cons (h : Handover α) (t : Turn α) (rest : List (Turn α)) :
    h.run (t :: rest) = (h.turn t).run rest := rfl

end Handover

/-- The outcome that a producer gives by this turn, if it has given none before. -/
def Turn.outcome? {α : Type} : Turn α → Option (Except Error α)
  | .complete outcome => some outcome
  | .drop => some (.error (.transport .dropped))
  | _ => none

/-- The outcome of the first of these turns by which a producer gives one. -/
def Turn.given? {α : Type} (turns : List (Turn α)) : Option (Except Error α) :=
  turns.findSome? outcome?

end UsimPhonebook
