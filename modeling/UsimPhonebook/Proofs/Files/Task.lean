import UsimPhonebook.Files.Task

/-! # How a task can run

`FileTask.Runs` tells which results a task can end with, what it has printed then, and which file
tree it leaves. A write gives the file its text, or it fails, for whatever cause, and leaves
everything as it is. A text that is printed is taken, or it is lost, for whatever cause. Carrying
out a task is one way for it to run, in which nothing is lost (`FileTask.exists_runs_runOn`).
-/

namespace UsimPhonebook

/-- A text that was printed. -/
structure Print where
  outlet : Outlet
  text : Text
  /-- the outlet took all of it -/
  taken : Bool

/-- All that was printed was taken. -/
def Heard (prints : List Print) : Prop := ∀ p ∈ prints, p.taken = true

namespace FileTask

variable {α β : Type}

/-- The task can end with the result when it has printed this, and leave `later`. -/
inductive Runs : FileTask α → FileTree → α → List Print → FileTree → Prop
  | done (result : α) (tree : FileTree) : Runs (.done result) tree result [] tree
  | probe {path : Text} {next : Bool → FileTask α} {tree later : FileTree} {result : α}
    {prints : List Print} (rest : Runs (next (tree.holds path)) tree result prints later) :
    Runs (.probe path next) tree result prints later
  | read {path : Text} {next : Except FileError Text → FileTask α} {tree later : FileTree}
    {result : α} {prints : List Print}
    (rest : Runs (next (tree.read path)) tree result prints later) :
    Runs (.read path next) tree result prints later
  | write {path text : Text} {next : Except FileError Unit → FileTask α}
    {tree written later : FileTree} {result : α} {prints : List Print}
    (done : tree.write path text = .ok written)
    (rest : Runs (next (.ok ())) written result prints later) :
    Runs (.write path text next) tree result prints later
  | fail {path text : Text} {next : Except FileError Unit → FileTask α} {tree later : FileTree}
    {result : α} {prints : List Print} (cause : FileError)
    (rest : Runs (next (.error cause)) tree result prints later) :
    Runs (.write path text next) tree result prints later
  | print {outlet : Outlet} {text : Text} {next : Bool → FileTask α} {tree later : FileTree}
    {result : α} {prints : List Print} (taken : Bool)
    (rest : Runs (next taken) tree result prints later) :
    Runs (.print outlet text next) tree result (⟨outlet, text, taken⟩ :: prints) later

variable {tree later : FileTree} {prints : List Print}

theorem runs_pure_iff {value result : α} :
    (pure value : FileTask α).Runs tree result prints later ↔
      result = value ∧ prints = [] ∧ later = tree := by
  constructor
  · intro runs
    cases runs
    exact ⟨rfl, rfl, rfl⟩
  · rintro ⟨rfl, rfl, rfl⟩
    exact .done result later

/-- The second task runs on what the first one leaves, and prints after it. -/
theorem runs_bind_iff {task : FileTask α} {f : α → FileTask β} {result : β} :
    (task >>= f).Runs tree result prints later ↔
      ∃ value middle first second, task.Runs tree value first middle ∧
        (f value).Runs middle result second later ∧ prints = first ++ second := by
  show (task.bind f).Runs tree result prints later ↔ _
  induction task generalizing tree prints with
  | done value =>
    constructor
    · exact fun runs => ⟨value, tree, [], prints, .done value tree, runs, rfl⟩
    · rintro ⟨value', middle, first, second, start, rest, rfl⟩
      cases start
      exact rest
  | probe path next ih =>
    constructor
    · intro runs
      cases runs with
      | probe rest =>
        obtain ⟨value, middle, first, second, start, rest, same⟩ := (ih _).1 rest
        exact ⟨value, middle, first, second, .probe start, rest, same⟩
    · rintro ⟨value, middle, first, second, start, rest, same⟩
      cases start with
      | probe start => exact .probe ((ih _).2 ⟨value, middle, first, second, start, rest, same⟩)
  | read path next ih =>
    constructor
    · intro runs
      cases runs with
      | read rest =>
        obtain ⟨value, middle, first, second, start, rest, same⟩ := (ih _).1 rest
        exact ⟨value, middle, first, second, .read start, rest, same⟩
    · rintro ⟨value, middle, first, second, start, rest, same⟩
      cases start with
      | read start => exact .read ((ih _).2 ⟨value, middle, first, second, start, rest, same⟩)
  | write path text next ih =>
    constructor
    · intro runs
      cases runs with
      | write written rest =>
        obtain ⟨value, middle, first, second, start, rest, same⟩ := (ih _).1 rest
        exact ⟨value, middle, first, second, .write written start, rest, same⟩
      | fail e rest =>
        obtain ⟨value, middle, first, second, start, rest, same⟩ := (ih _).1 rest
        exact ⟨value, middle, first, second, .fail e start, rest, same⟩
    · rintro ⟨value, middle, first, second, start, rest, same⟩
      cases start with
      | write written start =>
        exact .write written ((ih _).2 ⟨value, middle, first, second, start, rest, same⟩)
      | fail e start =>
        exact .fail e ((ih _).2 ⟨value, middle, first, second, start, rest, same⟩)
  | print outlet text next ih =>
    constructor
    · intro runs
      cases runs with
      | print taken rest =>
        obtain ⟨value, middle, first, second, start, rest, same⟩ := (ih _).1 rest
        exact ⟨value, middle, _, second, .print taken start, rest, congrArg _ same⟩
    · rintro ⟨value, middle, first, second, start, rest, rfl⟩
      cases start with
      | print taken start =>
        exact .print taken ((ih _).2 ⟨value, middle, _, second, start, rest, rfl⟩)

/-- The task prints nothing, whatever it is told. -/
def Silent : FileTask α → Prop
  | .done _ => True
  | .probe _ next => ∀ there, (next there).Silent
  | .read _ next => ∀ outcome, (next outcome).Silent
  | .write _ _ next => ∀ outcome, (next outcome).Silent
  | .print _ _ _ => False

theorem Silent.bind {task : FileTask α} {f : α → FileTask β} (first : task.Silent)
    (rest : ∀ value, (f value).Silent) : (task >>= f).Silent := by
  show (task.bind f).Silent
  induction task with
  | done value => exact rest value
  | probe path next ih => exact fun there => ih there (first there)
  | read path next ih => exact fun outcome => ih outcome (first outcome)
  | write path text next ih => exact fun outcome => ih outcome (first outcome)
  | print => exact first.elim

theorem runs_pure_silently_iff {value result : α} :
    (pure value : FileTask α).Runs tree result [] later ↔ result = value ∧ later = tree := by
  rw [runs_pure_iff]
  simp only [true_and]

theorem runs_bind_silently_iff {task : FileTask α} {f : α → FileTask β} {result : β} :
    (task >>= f).Runs tree result [] later ↔
      ∃ value middle, task.Runs tree value [] middle ∧ (f value).Runs middle result [] later := by
  rw [runs_bind_iff]
  constructor
  · rintro ⟨value, middle, first, second, start, rest, none⟩
    obtain ⟨rfl, rfl⟩ := List.append_eq_nil_iff.1 none.symm
    exact ⟨value, middle, start, rest⟩
  · rintro ⟨value, middle, start, rest⟩
    exact ⟨value, middle, [], [], start, rest, rfl⟩

end FileTask

end UsimPhonebook
