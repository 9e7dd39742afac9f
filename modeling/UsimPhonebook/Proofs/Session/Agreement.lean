import UsimPhonebook.Proofs.Session.Completeness
import UsimPhonebook.Proofs.Session.Ownership

/-! # What a session holds after edits

After any run of loads, invalidations, resets and updates that succeed, a last load leaves the
session with the entries and the free slots of a new session that loads the same card, and on the
way every update changes the values of one kind of one entry (`Session.agrees_with_fresh`).

The invariant is `Session.Coherent`: all is in order (`Session.Sound`), no fault is pending, and
every block agrees with its files. A load that starts there has read every block that can be read
(`Session.Full`), and the card alone decides what is held then (`Session.Full.eq`).
-/

namespace UsimPhonebook.Session

/-- The command is no update, or it is one with some text that succeeds. -/
def Succeeds (s : Session) : Command → Prop
  | .update position old new kind =>
    ¬ (old = [] ∧ new = []) ∧ (s.obey (.update position old new kind)).1 = none
  | _ => True

/-- All is in order, no fault is pending, and every block agrees with its files. -/
structure Coherent (s : Session) : Prop where
  sound : s.Sound
  calm : s.card.faults = []
  agreed : s.Upholds Agreed

/-- Every block that can be read is loaded. -/
structure Full (s : Session) : Prop where
  coherent : s.Coherent
  table : ∀ table, Reference.Table.on? s.card.files s.options.referenceFile = some table →
    table.blocks ≠ [] → s.table = some table
  loaded : ∀ table i refs b, s.table = some table → table.block? i = some refs →
    s.blocks[i]? = some b → (refs.on s.card.files .adn).isSome → b.entries.isSome

variable {s : Session}

/-! ## Commands -/

theorem coherent_start (card : Card) (options : Options)
    (formed : WellFormed options.referenceFile card.files) (calm : card.faults = []) :
    (start card options).Coherent where
  sound := sound_start formed
  calm := calm
  agreed := by
    intro table i refs b held
    cases held

theorem Coherent.continues (h : s.Coherent) {s' : Session} (c : s.Continues s') : s'.Coherent where
  sound := h.sound.continues c
  calm := c.reads.faultless h.calm
  agreed := c.upholds _ _ loads_agreed h.calm h.agreed

theorem Coherent.effect_of_obey (h : s.Coherent) {position : Nat} {old new : Text}
    {kind : FieldKind} (ok : (s.obey (.update position old new kind)).1 = none) :
    ∃ i offset table refs b d' slot file record,
      s.Visit position i offset table refs b ∧
      (s.obey (.update position old new kind)).2 = s.withDesk i d' ∧
      Desk.Ready table s.options.referenceFile i refs offset ⟨s.channel, b⟩ ∧
      Desk.Confined table s.options.referenceFile i ⟨s.channel, b⟩ d' ∧
      SameShape s.card.files d'.card.files ∧
      Desk.Effect table refs kind offset old new ⟨s.channel, b⟩ d' (.ok ()) slot file record := by
  obtain ⟨i, offset, table, refs, b, d', v, ended, performed⟩ := ended_of_obey ok
  have ready := h.sound.ready v
  rcases ended.effect ready with ⟨e, failed, -⟩ | ⟨slot, file, record, effect⟩
  · cases failed
  · exact ⟨i, offset, table, refs, b, d', slot, file, record, v, performed, ready,
      ended.confined ready.separate ready.named, ended.sameShape.1, effect⟩

theorem Coherent.obey (h : s.Coherent) {command : Command} (succeeds : s.Succeeds command) :
    (s.obey command).2.Coherent := by
  rcases s.continues_or_update command with continues | ⟨position, old, new, kind, rfl⟩
  · exact h.continues continues
  · obtain ⟨texts, ok⟩ := succeeds
    obtain ⟨i, offset, table, refs, b, d', slot, file, record, v, performed, ready, confined, shape,
      effect⟩ := h.effect_of_obey ok
    rw [performed]
    obtain ⟨linked, owned⟩ := owned_of_effect ready effect
      fun place named pointed names empty => by
        rw [effect.done rfl texts place pointed, if_pos empty] at names
        cases names
    refine ⟨h.sound.withDesk v.held v.named confined linked owned,
      confined.follows.faultless h.calm,
      .withDesk v.held v.named (fun j refs' b' named' here' ne => ?_) ?_⟩
    · rw [confined.others j refs' named' ne]
      exact h.agreed table j refs' b' v.held named' here'
    · exact (v.upheld h.agreed).edited ready effect texts shape

theorem Coherent.run (h : s.Coherent) {commands : List Command}
    (succeeds : s.Along Succeeds commands) : (s.run commands).Coherent :=
  run_induction (fun _ _ coherent succeeds => coherent.obey succeeds) h succeeds

/-! ## A last load -/

theorem Coherent.synced (h : s.Coherent) : s.Synced := ⟨h.sound.rooted, h.calm, h.agreed⟩

theorem Full.toLoaded (h : s.Full) : s.Loaded := ⟨h.coherent.synced, h.table, h.loaded⟩

theorem Coherent.full_load (h : s.Coherent) : (s.obey .load).2.Full := by
  obtain ⟨-, table, loaded⟩ := h.synced.loaded_load
  exact ⟨h.obey trivial, table, loaded⟩

/-- What a full session holds of entries and of free slots is decided by the card. -/
theorem Full.eq (h : s.Full) {s' : Session} (h' : s'.Full)
    (options : s'.options.referenceFile = s.options.referenceFile)
    (files : s'.card.files = s.card.files) :
    s.entries = s'.entries ∧
      ∀ kind block, s.freeInBlock kind block = s'.freeInBlock kind block :=
  h.toLoaded.eq h'.toLoaded options files

/-! ## One update -/

/-- An update that succeeds changes the values of one kind of one entry. They become the value that
the card now links to the entry, which is what the record that was written reads as. -/
theorem Coherent.changed (h : s.Coherent) {position : Nat} {old new : Text} {kind : FieldKind}
    (texts : ¬ (old = [] ∧ new = [])) (ok : (s.obey (.update position old new kind)).1 = none) :
    let s' := (s.obey (.update position old new kind)).2
    ∃ i offset table refs b file slot record, s.Visit position i offset table refs b ∧
      refs.on s.card.files (.ofKind kind) = some file ∧
      refs.on s'.card.files (.ofKind kind) = some (file.setRecord slot record) ∧
      (refs.on s'.card.files).value? (table.linkage kind) kind offset =
        (if new = [] then none else some (slot - 1, kind.decode record)) ∧
      s'.entries = s.entries.modify position
        (·.setValues kind (if new = [] then [] else [kind.decode record])) := by
  intro s'
  obtain ⟨i, offset, table, refs, b, d', slot, file, record, v, performed, ready, -, -, effect⟩ :=
    h.effect_of_obey ok
  have same : s' = s.withDesk i d' := performed
  refine ⟨i, offset, table, refs, b, file, slot, record, v, effect.edited.found, ?_, ?_, ?_⟩
  · rw [same]
    exact effect.edited.field
  · rw [same]
    exact effect.value?_self texts
  · rw [same]
    exact flatMap_set_of_locateIn v.located v.here (effect.changed rfl)

theorem along_append {C : Session → Command → Prop} {first second : List Command} :
    s.Along C (first ++ second) ↔ s.Along C first ∧ (s.run first).Along C second := by
  induction first generalizing s with
  | nil =>
    show _ ↔ True ∧ _
    rw [true_and]
    rfl
  | cons command rest ih =>
    show C s command ∧ (s.obey command).2.Along C (rest ++ second) ↔ _
    rw [ih]
    exact and_assoc.symm

/-- After updates that succeed, and whatever loads, invalidations and resets, a last load leaves the
session with the entries and the free slots of a new session on the same card; and every update on
the way changed the values of one kind of one entry, to the value that it stored. -/
theorem agrees_with_fresh {card : Card} {options : Options}
    (formed : WellFormed options.referenceFile card.files) (calm : card.faults = [])
    {commands : List Command} (succeed : (start card options).Along Succeeds commands) :
    (∀ options' : Options, options'.referenceFile = options.referenceFile →
      let s := (start card options).run (commands ++ [.load])
      let fresh := (start s.card options').run [.load]
      s.entries = fresh.entries ∧
        ∀ kind block, s.freeInBlock kind block = fresh.freeInBlock kind block) ∧
    ∀ before after position old new kind,
      commands = before ++ .update position old new kind :: after →
      let s := (start card options).run before
      let s' := (s.obey (.update position old new kind)).2
      ∃ i offset table refs b file slot record, s.Visit position i offset table refs b ∧
        refs.on s.card.files (.ofKind kind) = some file ∧
        refs.on s'.card.files (.ofKind kind) = some (file.setRecord slot record) ∧
        (refs.on s'.card.files).value? (table.linkage kind) kind offset =
          (if new = [] then none else some (slot - 1, kind.decode record)) ∧
        s'.entries = s.entries.modify position
          (·.setValues kind (if new = [] then [] else [kind.decode record])) := by
  have begun : (start card options).Coherent := coherent_start card options formed calm
  constructor
  · intro options' reference s fresh
    have full : s.Full := by
      show ((start card options).run (commands ++ [.load])).Full
      rw [run_append]
      exact (begun.run succeed).full_load
    have same : s.options = options := options_run (start card options) _
    have fresh_full : fresh.Full := by
      refine (coherent_start s.card options' ?_ full.coherent.calm).full_load
      rw [reference, ← same]
      exact full.coherent.sound.formed
    refine full.eq fresh_full ?_ ?_
    · have same' : fresh.options = options' := options_run (start s.card options') _
      rw [same, same', reference]
    · exact (continues_load (start s.card options')).reads.files
  · intro before after position old new kind split
    rw [split, along_append] at succeed
    obtain ⟨first, here, -⟩ := succeed
    exact (begun.run first).changed here.1 here.2

/-- A value is given to the second entry and the one of the first is taken away, with the entries
dropped and read again in between. -/
theorem agrees_with_fresh_pairCard :
    let s := (start pairCard {}).run ([.load, .update 1 [] ['b'] .email, .invalidate, .loadBlock 0,
      .update 0 ['a'] [] .email] ++ [.load])
    let fresh := (start s.card { sharePointers := false }).run [.load]
    s.entries.map (·.emails) = [[], [['b']]] ∧ s.entries = fresh.entries ∧
      ∀ kind block, s.freeInBlock kind block = fresh.freeInBlock kind block := by
  have formed : WellFormed ({} : Options).referenceFile pairCard.files := by decide +kernel
  refine ⟨by decide +kernel, (agrees_with_fresh formed rfl ?_).1 { sharePointers := false } rfl⟩
  refine ⟨trivial, ?_, trivial, trivial, ?_, trivial⟩
  · exact ⟨by decide, by decide +kernel⟩
  · exact ⟨by decide, by decide +kernel⟩

end UsimPhonebook.Session
