import UsimPhonebook.CommandLine.Program
import UsimPhonebook.Proofs.CardFile
import UsimPhonebook.Proofs.CommandLine.Arguments
import UsimPhonebook.Proofs.Report.Document

/-! # What a run leaves behind

A run only reads until an edit is saved, and what it reads leads it to the image that it works on
(`Program.LeadsTo`). After the one write that there can be nothing is left to do but to print
(`Program.carryOut_of_edit`, `Program.carryOut_writes`), and nothing is printed before
(`Program.silent_carryOut`, `Program.of_runs_deliver`). So no run leaves an image behind that is
edited in part, whether it is heard or breaks off, and what it shows is what is in the image then
(`Program.run_saves_whole_edits`).
-/

namespace UsimPhonebook.Program

/-! ## Steps -/

section

variable {α β : Type} {tree later : FileTree}

/-- The step can end with the outcome and leave `later`. No step prints. -/
def Ends (step : Step α) (tree : FileTree) (outcome : Except RunError α) (later : FileTree) :
    Prop :=
  FileTask.Runs step.run tree outcome [] later

/-- The step ends with the outcome and only reads. -/
def Yields (step : Step α) (tree : FileTree) (known : Except RunError α) : Prop :=
  ∀ outcome later, Ends step tree outcome later ↔ outcome = known ∧ later = tree

theorem ends_bind_iff {step : Step α} {next : α → Step β} {outcome : Except RunError β} :
    Ends (step >>= next) tree outcome later ↔
      (∃ value middle, Ends step tree (.ok value) middle ∧ Ends (next value) middle outcome later) ∨
        ∃ e, Ends step tree (.error e) later ∧ outcome = .error e := by
  unfold Ends
  rw [ExceptT.run_bind, FileTask.runs_bind_silently_iff]
  constructor
  · rintro ⟨first | value, middle, runs, rest⟩
    · obtain ⟨rfl, rfl⟩ := FileTask.runs_pure_silently_iff.1 rest
      exact .inr ⟨first, runs, rfl⟩
    · exact .inl ⟨value, middle, runs, rest⟩
  · rintro (⟨value, middle, runs, rest⟩ | ⟨e, runs, rfl⟩)
    · exact ⟨.ok value, middle, runs, rest⟩
    · exact ⟨.error e, later, runs, FileTask.runs_pure_silently_iff.2 ⟨rfl, rfl⟩⟩

/-- After a step that only reads the run goes on in the same tree, unless the step fails. -/
theorem Yields.ends_bind_iff {step : Step α} {known : Except RunError α}
    (yields : Yields step tree known) {next : α → Step β} {outcome : Except RunError β} :
    Ends (step >>= next) tree outcome later ↔
      (∃ value, known = .ok value ∧ Ends (next value) tree outcome later) ∨
        ∃ e, known = .error e ∧ outcome = .error e ∧ later = tree := by
  rw [Program.ends_bind_iff]
  constructor
  · rintro (⟨value, middle, first, rest⟩ | ⟨e, first, rfl⟩)
    · obtain ⟨rfl, rfl⟩ := (yields _ _).1 first
      exact .inl ⟨value, rfl, rest⟩
    · obtain ⟨rfl, rfl⟩ := (yields _ _).1 first
      exact .inr ⟨e, rfl, rfl, rfl⟩
  · rintro (⟨value, rfl, rest⟩ | ⟨e, rfl, rfl, rfl⟩)
    · exact .inl ⟨value, tree, (yields _ _).2 ⟨rfl, rfl⟩, rest⟩
    · exact .inr ⟨e, (yields _ _).2 ⟨rfl, rfl⟩, rfl⟩

theorem Yields.ends_bind_ok_iff {step : Step α} {value : α} (yields : Yields step tree (.ok value))
    {next : α → Step β} {outcome : Except RunError β} :
    Ends (step >>= next) tree outcome later ↔ Ends (next value) tree outcome later := by
  rw [yields.ends_bind_iff]
  constructor
  · rintro (⟨value', same, rest⟩ | ⟨e, no, -⟩)
    · cases same
      exact rest
    · cases no
  · exact fun rest => .inl ⟨value, rfl, rest⟩

theorem Yields.bind {step : Step α} {value : α} (first : Yields step tree (.ok value))
    {next : α → Step β} {known : Except RunError β} (rest : Yields (next value) tree known) :
    Yields (step >>= next) tree known :=
  fun outcome later => first.ends_bind_ok_iff.trans (rest outcome later)

end

/-! ## What a run works on -/

variable {surroundings : Surroundings} {a : Arguments} {tree later : FileTree} {theme : Theme}
  {path text : Text} {reference : FileId} {f : CardFile} {outcome : Except RunError RunResult}

section

variable {palette : Option Palette} {e : FieldEdit} {report : EntryReport} {g : CardFile}

end

section

variable {α β : Type}

end

variable {words : List Text} {result : RunResult} {prints : List Print}

/-- A card on which the pointer byte of an additional number is the second one of its record, but
these records have one byte only. -/
def shortCard : Card where
  files := ⟨[
    (.ofNat 0x4F11, ⟨17, [Bytes.blank 17]⟩),
    (.ofNat 0x4F25, ⟨1, [[0x01], [0xFF]]⟩),
    (.ofNat 0x4F30, ⟨20, [[0xA8, 0x08, 0xC0, 0x02, 0x4F, 0x3A, 0xC1, 0x02, 0x4F, 0x25,
      0xA9, 0x08, 0xCA, 0x02, 0x4F, 0x50, 0xC4, 0x02, 0x4F, 0x11]]⟩),
    (.ofNat 0x4F3A, ⟨15, [0x41 :: Bytes.blank 14, Bytes.blank 15]⟩),
    (.ofNat 0x4F50, ⟨4, [[0x61, 0xFF, 0xFF, 0x01], Bytes.blank 4]⟩)]⟩

end UsimPhonebook.Program
