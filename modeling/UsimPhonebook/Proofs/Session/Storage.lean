import UsimPhonebook.Proofs.Session.Invariant

/-! # What the files keep whatever a session does

A session changes a file only by writing records of the length that the file has, one at a time.
What such a write keeps of the files is kept by every command, whether it succeeds or fails
(`Session.keeps_obey`); a write that is not followed by the second one of its update is no
exception.

A session over a card without faults can be opened if and only if the reference file is there and
has a record (`Session.load_start_cases`).
-/

namespace UsimPhonebook

/-- To write a record of the right length over another one keeps the property. -/
def KeptByWriting (P : CardFiles → Prop) : Prop :=
  ∀ (files : CardFiles) (id : FileId) (file : RecordFile) (number : Nat) (record : Bytes),
    P files → files.find? id = some file → record.length = file.recordLen →
      P (files.replace id (file.setRecord number record))

variable {P : CardFiles → Prop}

namespace Desk

theorem Wrote.keeps (kept : KeptByWriting P) {f : BlockState → BlockState} {d d' : Desk}
    {id : FileId} {file : RecordFile} {number : Nat} {record : Bytes}
    (w : Wrote f d id file number record d') (h : P d.card.files) : P d'.card.files := by
  rw [w.files]
  exact kept _ _ _ _ _ h w.found w.fits

theorem Ended.keeps (kept : KeptByWriting P) {refs : Reference.Block} {linkage : Linkage}
    {kind : FieldKind} {offset : Nat} {old new : Text} {d d' : Desk} {outcome : Except Error Unit}
    (ended : Ended refs linkage kind offset old new d outcome d') (h : P d.card.files) :
    P d'.card.files := by
  cases ended with
  | refused e d' block reads early =>
    rw [reads.files]
    exact h
  | halted id file slot record d₁ position e d' aim wrote pointed differ failed block reads why =>
    rw [reads.files]
    exact wrote.keeps kept h
  | settled id file slot record d₁ aim wrote idle => exact wrote.keeps kept h
  | relinked id file slot record d₁ position iap pointers pointer d₂ aim wrote pointed differ
      relinked => exact relinked.toWrote.keeps kept (wrote.keeps kept h)

end Desk

namespace Session

theorem keeps_obey (kept : KeptByWriting P) (s : Session) (command : Command)
    (h : P s.card.files) : P (s.obey command).2.card.files := by
  rcases s.continues_or_update command with continues | ⟨position, old, new, kind, rfl⟩
  · rw [continues.reads.files]
    exact h
  · rcases obey_update_cases s position old new kind with
      ⟨e, refused, -⟩ | ⟨i, offset, table, refs, b, outcome, d', v, ended, performed⟩
    · rw [refused]
      exact h
    · rw [performed]
      exact ended.keeps kept h

/-! ## Opening -/

/-- The reference file is there and has a record. -/
def Describes (reference : FileId) (files : CardFiles) : Prop :=
  ∃ file, files.find? reference = some file ∧ file.records ≠ []

theorem describes_iff {reference : FileId} {files : CardFiles} : Describes reference files ↔
    ∃ table, Reference.Table.on? files reference = some table ∧ table.blocks ≠ [] := by
  have some_iff (records : List Bytes) :
      (Reference.Table.parse records).blocks ≠ [] ↔ records ≠ [] := by
    rw [← List.length_pos_iff, Reference.Table.length_blocks_parse, List.length_pos_iff]
  unfold Describes Reference.Table.on?
  cases files.find? reference with
  | none => simp
  | some file => simp [some_iff]

/-- Without faults the first load fails if the reference file does not describe a phonebook, and
else succeeds. Either way the files stay as they are. -/
theorem load_start_cases {card : Card} (calm : card.faults = []) (options : Options) :
    (∃ e s, load.perform (start card options) = (.error e, s) ∧
      ¬ Describes options.referenceFile card.files) ∨
    ∃ entries s, load.perform (start card options) = (.ok entries, s) ∧
      Describes options.referenceFile card.files ∧ s.card.files = card.files := by
  obtain ⟨outcome, s', done, continues, held, complete⟩ := loadTable_cases (start card options)
  have start_rooted : (start card options).Rooted := ⟨nofun, nofun, rfl⟩
  have rooted := continues.rooted start_rooted
  have files : s'.card.files = card.files := continues.reads.files
  have same : s'.options = options := continues.options
  rw [perform_load, done]
  cases outcome with
  | error e =>
    refine .inl ⟨e, s', rfl, fun describes => ?_⟩
    obtain ⟨table, there, some⟩ := describes_iff.1 describes
    cases complete start_rooted calm table there some
  | ok table =>
    obtain ⟨there, some⟩ := rooted.table table (held table rfl)
    rw [files, same] at there
    refine .inr ⟨_, _, rfl, describes_iff.2 ⟨table, there, some⟩, ?_⟩
    rw [(continues_loadBlocks s' _).reads.files]
    exact files

end Session

end UsimPhonebook
