import UsimPhonebook.Session.Basic

/-! # Histories

What a session can be told to do, one command after the other. `Session.run` gives the state that a
list of commands leads to.

Between two commands the card can be set to fail some later request. `Session.after` gives the state
that a history of commands and such faults leads to. Others may write to the card as well:
`Session.despite` gives the state after commands between which anything happened to it.
-/

namespace UsimPhonebook

inductive Command
  | load
  | loadBlock (block : Nat)
  | invalidate
  | reset
  | update (position : Nat) (old new : Text) (kind : FieldKind)
  deriving DecidableEq, Repr

/-- A command to a session, or a fault that comes to be pending on its card. -/
inductive Event
  | command (command : Command)
  | fault (op : Operation) (file : FileId)
  deriving DecidableEq, Repr

/-- A command to a session, or a card that has become another one meanwhile: in its files, in the
faults that are pending, or in both. -/
inductive Incident
  | command (command : Command)
  | card (card : Card)
  deriving DecidableEq, Repr

namespace Session

/-- Carries out a command; gives the error with which it failed, if any. -/
def obey (s : Session) : Command → Option Error × Session
  | .load =>
    let (outcome, s) := load.perform s
    (refusal outcome, s)
  | .loadBlock block =>
    let (outcome, s) := (loadBlock block).perform s
    (refusal outcome, s)
  | .invalidate => (none, s.invalidate)
  | .reset => (none, s.reset)
  | .update position old new kind =>
    let (outcome, s) := (update position old new kind).perform s
    (refusal outcome, s)
where
  /-- The error of an outcome. -/
  refusal {α : Type} : Except Error α → Option Error
    | .ok _ => none
    | .error e => some e

def run (s : Session) (commands : List Command) : Session :=
  commands.foldl (fun s command => (s.obey command).2) s

@[simp] theorem run_nil (s : Session) : s.run [] = s := rfl

@[simp] theorem run_cons (s : Session) (command : Command) (rest : List Command) :
    s.run (command :: rest) = (s.obey command).2.run rest := rfl

theorem run_append (s : Session) (first second : List Command) :
    s.run (first ++ second) = (s.run first).run second := by
  simp [run]

/-- The session after an event, whether a command succeeds or fails. -/
def meet (s : Session) : Event → Session
  | .command command => (s.obey command).2
  | .fault op file => s.onCard (·.failNext op file)

def after (s : Session) (events : List Event) : Session := events.foldl meet s

@[simp] theorem after_nil (s : Session) : s.after [] = s := rfl

@[simp] theorem after_cons (s : Session) (event : Event) (rest : List Event) :
    s.after (event :: rest) = (s.meet event).after rest := rfl

/-- A run is a history without faults. -/
theorem after_commands (s : Session) (commands : List Command) :
    s.after (commands.map .command) = s.run commands := by
  unfold after run
  rw [List.foldl_map]
  rfl

/-- The session after an incident, whether a command succeeds or fails. -/
def suffer (s : Session) : Incident → Session
  | .command command => (s.obey command).2
  | .card card => s.onCard fun _ => card

def despite (s : Session) (incidents : List Incident) : Session := incidents.foldl suffer s

@[simp] theorem despite_nil (s : Session) : s.despite [] = s := rfl

@[simp] theorem despite_cons (s : Session) (incident : Incident) (rest : List Incident) :
    s.despite (incident :: rest) = (s.suffer incident).despite rest := rfl

end Session

end UsimPhonebook
