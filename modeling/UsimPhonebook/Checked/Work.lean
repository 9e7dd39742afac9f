import UsimPhonebook.Checked.Access
import UsimPhonebook.Session.Basic

/-! # Work that may run into a failing access

Work changes a session and gives a result or an error, as an action does, unless an access fails
somewhere on its way: then it has no outcome. The blocks of the session are taken by index, each
time that one of them is looked at or changed.
-/

namespace UsimPhonebook.Checked

/-- A step on a session that gives an `α` or an error, if no access fails. -/
abbrev Work (α : Type) := ExceptT Error (StateT Session Option) α

namespace Work

variable {α β : Type}

def perform (w : Work α) (s : Session) : Option (Except Error α × Session) := w s

/-- The work that a function on sessions describes. -/
def of (f : Session → Option (Except Error α × Session)) : Work α := f

/-- Gives the value of a computation that needs no session. -/
def lift (x : Except Error α) : Work α := of fun s => some (x, s)

/-- Gives the value of a computation that is made of accesses. -/
def demand (x : Option α) : Work α := of fun s => x.map fun v => (.ok v, s)

def attempt (w : Work α) : Work (Option α) :=
  of fun s => (w.perform s).map fun (outcome, s) => (.ok outcome.toOption, s)

def ignoringFailure (w : Work Unit) : Work Unit :=
  of fun s => (w.perform s).map fun (_, s) => (.ok (), s)

def ask (request : Request) : Work request.Reply :=
  of fun s =>
    some ((s.channel.ask request).1, { s with channel := (s.channel.ask request).2 })

def note (event : TrafficEvent) : Work Unit :=
  of fun s => some (.ok (), { s with channel := s.channel.note event })

def blockAt (i : Nat) : Work BlockState := of fun s => s.blocks[i]?.map fun b => (.ok b, s)

def change (i : Nat) (f : BlockState → Option BlockState) : Work Unit :=
  of fun s => do
    let b ← s.blocks[i]?
    let b ← f b
    let blocks ← set? s.blocks i b
    pure (.ok (), { s with blocks })

@[simp] theorem perform_of (f : Session → Option (Except Error α × Session)) (s : Session) :
    (of f).perform s = f s := rfl

@[simp] theorem perform_pure (x : α) (s : Session) :
    (pure x : Work α).perform s = some (.ok x, s) := rfl

@[simp] theorem perform_throw (e : Error) (s : Session) :
    (throw e : Work α).perform s = some (.error e, s) := rfl

@[simp] theorem perform_get (s : Session) :
    (get : Work Session).perform s = some (.ok s, s) := rfl

@[simp] theorem perform_modify (f : Session → Session) (s : Session) :
    (modify f : Work Unit).perform s = some (.ok (), f s) := rfl

@[simp] theorem perform_lift (x : Except Error α) (s : Session) :
    (lift x).perform s = some (x, s) := rfl

@[simp] theorem perform_demand_some (x : α) (s : Session) :
    (demand (some x)).perform s = some (.ok x, s) := rfl

@[simp] theorem perform_ask (request : Request) (s : Session) :
    (ask request).perform s =
      some ((s.channel.ask request).1, { s with channel := (s.channel.ask request).2 }) := rfl

/-- The second work starts where the first one stopped, if that succeeds. -/
theorem perform_bind (w : Work α) (f : α → Work β) (s : Session) :
    (w >>= f).perform s =
      match w.perform s with
      | some (.ok x, s) => (f x).perform s
      | some (.error e, s) => some (.error e, s)
      | none => none := by
  show ((w s).bind fun (outcome, s) => (ExceptT.bindCont f outcome : StateT Session Option _) s) = _
  unfold perform
  rcases w s with _ | ⟨_ | _, _⟩ <;> rfl

end Work

end UsimPhonebook.Checked
