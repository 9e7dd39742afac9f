import UsimPhonebook.Error

/-! # Actions

An action changes a state and gives a result or an error; what it has changed stays changed when it
fails. `Action.perform` runs it, and the lemmas `perform_…` say what each building block does to
the state.
-/

namespace UsimPhonebook

/-- A step on a state of type `σ` that gives an `α` or an error. -/
abbrev Action (σ α : Type) := ExceptT Error (StateM σ) α

namespace Action

variable {σ α β : Type}

def perform (a : Action σ α) (s : σ) : Except Error α × σ := a s

def of (f : σ → Except Error α × σ) : Action σ α := f

/-- Gives the result of an action that succeeds, `none` for one that fails. -/
def attempt (a : Action σ α) : Action σ (Option α) :=
  of fun s =>
    match a.perform s with
    | (.ok x, s) => (.ok (some x), s)
    | (.error _, s) => (.ok none, s)

def ignoringFailure (a : Action σ Unit) : Action σ Unit := of fun s => (.ok (), (a.perform s).2)

/-- Gives the value of a computation that needs no state. -/
def lift (x : Except Error α) : Action σ α := of fun s => (x, s)

@[simp] theorem perform_of (f : σ → Except Error α × σ) (s : σ) : (of f).perform s = f s := rfl

@[simp] theorem perform_ignoringFailure (a : Action σ Unit) (s : σ) :
    a.ignoringFailure.perform s = (.ok (), (a.perform s).2) := rfl

@[simp] theorem perform_pure (x : α) (s : σ) :
    (pure x : Action σ α).perform s = (.ok x, s) := rfl

@[simp] theorem perform_throw (e : Error) (s : σ) :
    (throw e : Action σ α).perform s = (.error e, s) := rfl

@[simp] theorem perform_get (s : σ) : (get : Action σ σ).perform s = (.ok s, s) := rfl

@[simp] theorem perform_modify (f : σ → σ) (s : σ) :
    (modify f : Action σ Unit).perform s = (.ok (), f s) := rfl

@[simp] theorem perform_lift (x : Except Error α) (s : σ) :
    (lift x : Action σ α).perform s = (x, s) := rfl

theorem perform_bind (a : Action σ α) (f : α → Action σ β) (s : σ) :
    (a >>= f).perform s =
      match a.perform s with
      | (.ok x, s) => (f x).perform s
      | (.error e, s) => (.error e, s) := by
  show (ExceptT.bindCont f (a s).1 : StateM σ _) (a s).2 = _
  unfold perform
  rcases a s with ⟨_ | _, _⟩ <;> rfl

theorem perform_attempt (a : Action σ α) (s : σ) :
    a.attempt.perform s = (.ok (a.perform s).1.toOption, (a.perform s).2) := by
  unfold attempt
  rw [perform_of]
  rcases a.perform s with ⟨_ | _, _⟩ <;> rfl

end Action

end UsimPhonebook
