import UsimPhonebook.Files.Tree

/-! # Tasks on files

A task asks what is at a path, reads and writes files, prints, and ends with a result. What it is
told decides how it goes on; it is also told whether all that it printed was taken.

`FileTask.runOn` carries a task out on a file tree where all that it prints is taken.
-/

namespace UsimPhonebook

inductive Outlet
  | output
  | errors
  deriving DecidableEq, Repr

/-- A task that ends with an `α`. -/
inductive FileTask (α : Type)
  | done (result : α)
  | probe (path : Text) (next : Bool → FileTask α)
  | read (path : Text) (next : Except FileError Text → FileTask α)
  | write (path text : Text) (next : Except FileError Unit → FileTask α)
  | print (outlet : Outlet) (text : Text) (next : Bool → FileTask α)

namespace FileTask

variable {α β : Type}

def bind : FileTask α → (α → FileTask β) → FileTask β
  | done result, f => f result
  | probe path next, f => probe path fun there => (next there).bind f
  | read path next, f => read path fun outcome => (next outcome).bind f
  | write path text next, f => write path text fun outcome => (next outcome).bind f
  | print outlet text next, f => print outlet text fun taken => (next taken).bind f

instance : Monad FileTask where
  pure := done
  bind := bind

def holds (path : Text) : FileTask Bool := probe path done

def readText (path : Text) : FileTask (Except FileError Text) := read path done

def writeText (path text : Text) : FileTask (Except FileError Unit) := write path text done

/-- Prints a text, if there is any; tells whether it was taken. -/
def say (outlet : Outlet) (text : Text) : FileTask Bool :=
  if text = [] then pure true else print outlet text done

/-- Carries out a task on a file tree; gives the result and the tree afterwards. -/
def runOn : FileTask α → FileTree → α × FileTree
  | done result, tree => (result, tree)
  | probe path next, tree => (next (tree.holds path)).runOn tree
  | read path next, tree => (next (tree.read path)).runOn tree
  | write path text next, tree =>
    match tree.write path text with
    | .ok tree => (next (.ok ())).runOn tree
    | .error e => (next (.error e)).runOn tree
  | print _ _ next, tree => (next true).runOn tree

@[simp] theorem runOn_pure (result : α) (tree : FileTree) :
    (pure result : FileTask α).runOn tree = (result, tree) := rfl

/-- The second task starts on the tree that the first one leaves. -/
theorem runOn_bind (task : FileTask α) (f : α → FileTask β) (tree : FileTree) :
    (task >>= f).runOn tree = (f (task.runOn tree).1).runOn (task.runOn tree).2 := by
  show (task.bind f).runOn tree = _
  induction task generalizing tree with
  | done result => rfl
  | probe path next ih => exact ih _ tree
  | read path next ih => exact ih _ tree
  | write path text next ih =>
    simp only [bind, runOn]
    split
    · exact ih _ _
    · exact ih _ _
  | print outlet text next ih => exact ih _ tree

end FileTask

end UsimPhonebook
