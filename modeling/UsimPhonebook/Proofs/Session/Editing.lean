import UsimPhonebook.Proofs.Card.Serving
import UsimPhonebook.Proofs.Field.Codec
import UsimPhonebook.Session.EditBlock

/-! # How an edit can end

An edit is refused before it writes anything, or it writes the record of the field and goes on to
the pointer byte (`Desk.edit_cases`). Seeing to the pointer byte changes nothing
(`Desk.relink_idle`), or it fails without changing anything, or it writes one index-pointer record
(`Desk.rewritePointer_cases`).

`Desk.Ended` puts the cases together (`Desk.edit_ended`).

`Desk.edit_of_aim`, `Desk.rewritePointer_of_calm`, `Desk.rewritePointer_beyond` and
`Desk.rewritePointer_of_fault` go the other way: they say how an edit ends when it is known which
of its requests meet a fault.
-/

namespace UsimPhonebook.Desk

/-- Between `d` and `d'` one record was written to the card, and the block was changed by `f`. -/
structure Wrote (f : BlockState → BlockState) (d : Desk) (id : FileId) (file : RecordFile)
    (number : Nat) (record : Bytes) (d' : Desk) : Prop where
  found : d.card.file? id = some file
  fits : record.length = file.recordLen
  block : d'.block = f d.block
  files : d'.card.files = d.card.files.replace id (file.setRecord number record)
  faults : d'.card.faults = d.card.faults
  follows : d.card.Follows d'.card

/-- Reading first makes no difference to what is written. -/
theorem Wrote.after {f : BlockState → BlockState} {d d₁ d' : Desk} {id : FileId}
    {file : RecordFile} {number : Nat} {record : Bytes} (reads : d.card.Reads d₁.card)
    (faults : d₁.card.faults = d.card.faults) (block : d₁.block = d.block)
    (w : Wrote f d₁ id file number record d') : Wrote f d id file number record d' where
  found := by rw [← reads.file?]; exact w.found
  fits := w.fits
  block := by rw [w.block, block]
  files := by rw [w.files, reads.files]
  faults := w.faults.trans faults
  follows := reads.toFollows.trans w.follows

/-- What an edit has settled when it comes to write: the file, the slot and the record. -/
structure Aim (files : Reference.Block) (linkage : Linkage) (kind : FieldKind) (offset : Nat)
    (old new : Text) (d : Desk) (id : FileId) (file : RecordFile) (slot : Nat) (record : Bytes) :
    Prop where
  named : files.file? (.ofKind kind) = some id
  found : d.card.file? id = some file
  resolved : d.block.resolveSlot kind linkage offset old = .ok slot
  low : 1 ≤ slot
  high : slot ≤ file.records.length
  encoded : encodeField kind linkage offset file.geometry new = .ok record

/-- The end of an edit: when the pointer byte is seen to, the entry gets its value. -/
def settle (kind : FieldKind) (offset : Nat) (record : Bytes) :
    Except Error Unit × Desk → Except Error Unit × Desk
  | (.ok (), d) => (.ok (), { d with block := applyValue kind offset record d.block })
  | (.error e, d) => (.error e, d)

/-- The pointer byte that goes with a value in a slot, or with none. -/
def pointerTo (slot : Nat) (new : Text) : UInt8 := if new.isEmpty then 0 else UInt8.ofNat slot

/-! ## Small facts -/

theorem fileOf_eq_ok_iff {files : Reference.Block} {tag : FileTag} {id : FileId} :
    fileOf files tag = .ok id ↔ files.file? tag = some id := by
  unfold fileOf
  cases files.file? tag <;> simp

theorem checkSlot_eq_ok_iff {size : Geometry} {slot : Nat} :
    checkSlot size slot = .ok () ↔ 1 ≤ slot ∧ slot ≤ size.count := by
  unfold checkSlot
  rw [← Geometry.contains_iff]
  cases size.contains slot <;> simp

theorem checkPosition_eq_ok_iff {size : Geometry} {position : Nat} :
    checkPosition size position = .ok () ↔ position < size.recordLen := by
  unfold checkPosition
  by_cases beyond : size.recordLen ≤ position
  · simp [beyond]
  · simp [beyond, Nat.not_le.1 beyond]

theorem checkSlot_of_lt {size : Geometry} {slot : Nat} (high : size.count < slot) :
    checkSlot size slot = .error (.slotOutOfRange slot size.count) := by
  have : size.contains slot = false := by
    rw [Bool.eq_false_iff, ne_eq, Geometry.contains_iff]
    omega
  unfold checkSlot
  rw [this]
  rfl

@[simp] theorem length_pointerRecord (held : Option Bytes) (recordLen position : Nat)
    (pointer : UInt8) : (pointerRecord held recordLen position pointer).length = recordLen := by
  simp [pointerRecord]

/-- The record of a field has the length of its file, and is empty or not as the value is. -/
theorem encodeField_spec {kind : FieldKind} {linkage : Linkage} {offset : Nat} {size : Geometry}
    {value : Text} {record : Bytes} (h : encodeField kind linkage offset size value = .ok record) :
    record.length = size.recordLen ∧ (kind.decode record = [] ↔ value = []) ∧
      (Bytes.isBlank record = true ↔ value = []) := by
  unfold encodeField at h
  cases link : backLink linkage offset with
  | error e =>
    rw [link] at h
    cases h
  | ok link' =>
    rw [link] at h
    exact FieldKind.encode_spec kind h

theorem size_of_ask {d : Desk} {id : FileId} {size : Geometry}
    (h : (d.ask (.size id)).1 = .ok size) :
    ∃ file, d.card.file? id = some file ∧ size = file.geometry := by
  obtain ⟨file, found, granted, -⟩ := file_of_ask h
  cases granted
  exact ⟨file, found, rfl⟩

/-! ## Errors before the first write

None of them is the one that a pointer byte beyond the record gives. -/

theorem error_of_ask {d : Desk} {request : Request} {e : Error}
    (h : (d.ask request).1 = .error e) : e ≠ .pointerBeyondRecord := by
  rw [ask_fst] at h
  cases served : (d.card.serve request).1 with
  | error cause =>
    rw [served] at h
    cases h
    nofun
  | ok reply =>
    rw [served] at h
    cases h

theorem error_of_fileOf {files : Reference.Block} {tag : FileTag} {e : Error}
    (h : fileOf files tag = .error e) : e ≠ .pointerBeyondRecord := by
  unfold fileOf at h
  split at h
  · cases h
  · cases h
    nofun

theorem error_of_resolveSlot {b : BlockState} {kind : FieldKind} {linkage : Linkage}
    {offset : Nat} {old : Text} {e : Error} (h : b.resolveSlot kind linkage offset old = .error e) :
    e ≠ .pointerBeyondRecord := by
  unfold BlockState.resolveSlot at h
  repeat' split at h
  all_goals cases h
  all_goals nofun

theorem error_of_checkSlot {size : Geometry} {slot : Nat} {e : Error}
    (h : checkSlot size slot = .error e) : e ≠ .pointerBeyondRecord := by
  unfold checkSlot at h
  split at h
  · cases h
  · cases h
    nofun

theorem error_of_encodeField {kind : FieldKind} {linkage : Linkage} {offset : Nat}
    {size : Geometry} {value : Text} {e : Error}
    (h : encodeField kind linkage offset size value = .error e) : e ≠ .pointerBeyondRecord := by
  unfold encodeField at h
  cases link : backLink linkage offset with
  | error e' =>
    rw [link] at h
    cases h
    unfold backLink recordByte at link
    repeat' split at link
    all_goals cases link
    all_goals nofun
  | ok link' =>
    rw [link] at h
    cases kind with
    | email =>
      have h : Email.encode size.recordLen value link' = .error e := h
      unfold Email.encode at h
      dsimp only at h
      repeat' split at h
      all_goals cases h
      all_goals nofun
    | anr =>
      have h : AdditionalNumber.encode size.recordLen value link' = .error e := h
      unfold AdditionalNumber.encode at h
      repeat' split at h
      all_goals cases h
      all_goals nofun

/-! ## Writing a record -/

section

variable {d : Desk} {id : FileId} {number : Nat} {record : Bytes} {file : RecordFile}

/-- To write a record, to change the block and to count it. -/
def writeThrough (id : FileId) (number : Nat) (record : Bytes) (f : BlockState → BlockState)
    (event : TrafficEvent) : Action Desk Unit := do
  write id number record
  change f
  note event

/-- It fails at the card and changes nothing, or it does its work. -/
theorem writeThrough_cases (d : Desk) (id : FileId) (number : Nat) (record : Bytes)
    (f : BlockState → BlockState) (event : TrafficEvent) :
    (∃ e d', (writeThrough id number record f event).perform d = (.error e, d') ∧
      d'.block = d.block ∧ d.card.Reads d'.card ∧ d.card.failures < d'.card.failures ∧
      e ≠ .pointerBeyondRecord) ∨
    ∃ file d', (writeThrough id number record f event).perform d = (.ok (), d') ∧
      Wrote f d id file number record d' := by
  unfold writeThrough
  simp only [Action.perform_bind, perform_write, perform_change, perform_note]
  have block := block_ask d (.write id number record)
  rcases asked : d.ask (.write id number record) with ⟨outcome | outcome, d'⟩
  · left
    have failed : (d.ask (.write id number record)).1 = .error outcome := by rw [asked]
    have reads := ask_reads (.inr ⟨_, failed⟩)
    have failures := failures_ask_of_error failed
    rw [asked] at reads block failures
    exact ⟨_, _, rfl, block, reads, failures, error_of_ask failed⟩
  · right
    have done : (d.ask (.write id number record)).1 = .ok outcome := by rw [asked]
    obtain ⟨file, found, fits, -, -, files⟩ := written_of_ask done
    have faults := faults_ask_of_ok done
    have follows := follows_ask d (.write id number record)
    rw [asked] at files faults follows block
    refine ⟨file, _, rfl, found, fits, congrArg f block, ?_, ?_, ?_⟩
    · simpa [Desk.card] using files
    · simpa [Desk.card] using faults
    · simpa [Desk.card] using follows

theorem writeThrough_of_calm (number : Nat) (record : Bytes) (f : BlockState → BlockState)
    (event : TrafficEvent)
    (calm : (Operation.write, id) ∉ d.card.faults) (found : d.card.file? id = some file)
    (low : 1 ≤ number) (high : number ≤ file.records.length)
    (len : record.length = file.recordLen) :
    ∃ d', (writeThrough id number record f event).perform d = (.ok (), d') ∧
      Wrote f d id file number record d' := by
  have done := write_of_calm calm found len low high
  rcases writeThrough_cases d id number record f event with ⟨e, d', failed, -⟩ | ⟨file', d', ok, w⟩
  · unfold writeThrough at failed
    rcases asked : d.ask (.write id number record) with ⟨outcome, d''⟩
    rw [asked] at done
    simp only at done
    subst done
    simp [Action.perform_bind, asked] at failed
  · have same := w.found
    rw [found] at same
    cases same
    exact ⟨d', ok, w⟩

theorem writeThrough_of_fault (number : Nat) (record : Bytes) (f : BlockState → BlockState)
    (event : TrafficEvent)
    (fault : (Operation.write, id) ∈ d.card.faults) :
    ∃ e d', (writeThrough id number record f event).perform d = (.error e, d') ∧
      d'.block = d.block ∧ d.card.Reads d'.card ∧
      d'.card.faults = d.card.faults.erase (Operation.write, id) := by
  have struck := ask_of_fault (d := d) (.write id number record) fun calm => calm fault
  have reads := ask_reads (.inr ⟨_, struck.1⟩)
  have block := block_ask d (.write id number record)
  unfold writeThrough
  simp only [Action.perform_bind, perform_write]
  rcases asked : d.ask (.write id number record) with ⟨outcome, d'⟩
  rw [asked] at struck reads block
  obtain ⟨e, faults⟩ := struck
  simp only at e
  subst e
  exact ⟨_, _, rfl, block, reads, faults⟩

end

/-! ## The pointer byte -/

section

variable {files : Reference.Block} {linkage : Linkage} {offset position slot : Nat}
  {pointer : UInt8} {old new : Text} {d : Desk} {id : FileId} {file : RecordFile}

theorem relink_idle (d : Desk) (h : linkage = .type1 ∨ old.isEmpty = new.isEmpty) :
    (relink files linkage offset slot old new).perform d = (.ok (), d) := by
  unfold relink
  cases linkage with
  | type1 => rfl
  | type2 position =>
    rcases h with h | h
    · cases h
    · simp [h]

theorem relink_eq (h : old.isEmpty ≠ new.isEmpty) :
    relink files (.type2 position) offset slot old new =
      rewritePointer files offset position (pointerTo slot new) := by
  unfold relink pointerTo
  simp only [if_neg h]

/-- Between `d` and `d'` the index-pointer record at `offset` was written. -/
structure Relinked (refs : Reference.Block) (offset position : Nat) (pointer : UInt8)
    (d : Desk) (id : FileId) (file : RecordFile) (record : Bytes) (d' : Desk) : Prop extends
    Wrote (·.setPointer offset record) d id file (offset + 1) record d' where
  named : refs.file? .iap = some id
  inside : offset < file.records.length
  place : position < file.recordLen
  eq : record = pointerRecord (d.block.pointer? offset) file.recordLen position pointer

theorem perform_rewritePointer (named : files.file? .iap = some id) {d' : Desk}
    (asked : d.ask (.size id) = (.ok file.geometry, d')) :
    (rewritePointer files offset position pointer).perform d =
      if file.records.length ≤ offset then
        (.error (.slotOutOfRange (offset + 1) file.records.length), d')
      else if file.recordLen ≤ position then (.error .pointerBeyondRecord, d')
      else (writeThrough id (offset + 1)
        (pointerRecord (d.block.pointer? offset) file.recordLen position pointer)
        (·.setPointer offset
          (pointerRecord (d.block.pointer? offset) file.recordLen position pointer))
        .pointerRewritten).perform d' := by
  have block : d'.block = d.block := by
    have := block_ask d (.size id)
    rwa [asked] at this
  unfold rewritePointer
  simp only [Action.perform_bind, Action.perform_lift, fileOf_eq_ok_iff.2 named, perform_sizeOf,
    asked, perform_current]
  by_cases inside : file.records.length ≤ offset
  · have out : checkSlot file.geometry (offset + 1) =
        .error (.slotOutOfRange (offset + 1) file.records.length) :=
      checkSlot_of_lt (show file.records.length < offset + 1 by omega)
    rw [out, if_pos inside]
  · have ok : checkSlot file.geometry (offset + 1) = .ok () :=
      checkSlot_eq_ok_iff.2 ⟨by omega, by show offset + 1 ≤ file.records.length; omega⟩
    rw [ok, if_neg inside]
    by_cases place : file.recordLen ≤ position
    · have out : checkPosition file.geometry position = .error .pointerBeyondRecord := if_pos place
      rw [out, if_pos place]
    · have ok : checkPosition file.geometry position = .ok () := if_neg place
      rw [ok, if_neg place, ← block]
      rfl

/-- To rewrite a pointer byte fails and changes nothing, or it does its work. If it fails, then a
request failed or the index-pointer file has no such record or no such byte. -/
theorem rewritePointer_cases (files : Reference.Block) (offset position : Nat) (pointer : UInt8)
    (d : Desk) :
    (∃ e d', (rewritePointer files offset position pointer).perform d = (.error e, d') ∧
      d'.block = d.block ∧ d.card.Reads d'.card ∧
      (d.card.failures < d'.card.failures ∨ ∀ id file, files.file? .iap = some id →
        d.card.file? id = some file →
        file.records.length ≤ offset ∨ file.recordLen ≤ position)) ∨
    ∃ id file record d', (rewritePointer files offset position pointer).perform d = (.ok (), d') ∧
      Relinked files offset position pointer d id file record d' := by
  cases named : files.file? .iap with
  | none =>
    left
    unfold rewritePointer fileOf
    simp only [Action.perform_bind, Action.perform_lift, named]
    exact ⟨_, _, rfl, rfl, .refl _, .inr fun id file no => by cases no⟩
  | some id =>
    have reads : d.card.Reads (d.ask (.size id)).2.card := ask_reads (.inl fun h => by cases h)
    have block := block_ask d (.size id)
    rcases asked : d.ask (.size id) with ⟨e | size, d₁⟩
    · left
      have failures := failures_ask_of_error (congrArg Prod.fst asked)
      rw [asked] at reads block failures
      unfold rewritePointer
      simp only [Action.perform_bind, Action.perform_lift, fileOf_eq_ok_iff.2 named,
        perform_sizeOf, asked]
      exact ⟨_, _, rfl, block, reads, .inl failures⟩
    · obtain ⟨file, found, rfl⟩ := size_of_ask (congrArg Prod.fst asked)
      rw [asked] at reads block
      have here {id' file'} (h : some id = some id') (h' : d.card.file? id' = some file') :
          file' = file := by
        cases h
        rw [found] at h'
        exact (Option.some.inj h').symm
      rw [perform_rewritePointer named asked]
      by_cases inside : file.records.length ≤ offset
      · rw [if_pos inside]
        exact .inl ⟨_, _, rfl, block, reads, .inr fun _ _ h h' => .inl (here h h' ▸ inside)⟩
      · rw [if_neg inside]
        by_cases place : file.recordLen ≤ position
        · rw [if_pos place]
          exact .inl ⟨_, _, rfl, block, reads, .inr fun _ _ h h' => .inr (here h h' ▸ place)⟩
        · rw [if_neg place]
          rcases writeThrough_cases d₁ id (offset + 1) _ _ .pointerRewritten with
            ⟨e, d', failed, block', reads', failures, -⟩ | ⟨file', d', ok, w⟩
          · refine .inl ⟨e, d', failed, block'.trans block, reads.trans reads', .inl ?_⟩
            exact Nat.lt_of_le_of_lt reads.failures failures
          · have same := w.found
            rw [reads.file?, found] at same
            cases same
            have faults := faults_ask_of_ok (congrArg Prod.fst asked)
            rw [asked] at faults
            have relinked : Relinked files offset position pointer d id file
                (pointerRecord (d.block.pointer? offset) file.recordLen position pointer) d' := {
              toWrote := w.after reads faults block
              named, eq := rfl
              inside := by omega
              place := by omega }
            exact .inr ⟨id, file, _, d', ok, relinked⟩

section

variable (named : files.file? .iap = some id) (found : d.card.file? id = some file)
  (inside : offset < file.records.length)

include named found inside

theorem rewritePointer_of_calm (pointer : UInt8) (place : position < file.recordLen)
    (size : (Operation.size, id) ∉ d.card.faults) (write : (Operation.write, id) ∉ d.card.faults) :
    ∃ record d', (rewritePointer files offset position pointer).perform d = (.ok (), d') ∧
      Relinked files offset position pointer d id file record d' := by
  have asked := ask_of_calm (.size id) size found
  rcases rewritePointer_cases files offset position pointer d with
    ⟨e, d', failed, -⟩ | ⟨id', file', record, d', ok, relinked⟩
  · rcases h : d.ask (.size id) with ⟨outcome, d₁⟩
    have reads : d.card.Reads (d.ask (.size id)).2.card := ask_reads (.inl fun h => by cases h)
    rw [h] at asked reads
    obtain ⟨rfl, faults⟩ := asked
    rw [perform_rewritePointer named h, if_neg (by omega), if_neg (by omega)] at failed
    obtain ⟨d'', ok, -⟩ := writeThrough_of_calm (d := d₁) (offset + 1)
      (pointerRecord (d.block.pointer? offset) file.recordLen position pointer)
      (·.setPointer offset
        (pointerRecord (d.block.pointer? offset) file.recordLen position pointer))
      .pointerRewritten (by rw [show d₁.card.faults = _ from faults]; exact write)
      (by rw [reads.file?]; exact found) (by omega) (by omega) (length_pointerRecord ..)
    rw [ok] at failed
    cases failed
  · have := relinked.named
    rw [named] at this
    cases this
    have := relinked.found
    rw [found] at this
    cases this
    exact ⟨record, d', ok, relinked⟩

theorem rewritePointer_beyond (position : Nat) (pointer : UInt8)
    (beyond : file.recordLen ≤ position) (size : (Operation.size, id) ∉ d.card.faults) :
    ((rewritePointer files offset position pointer).perform d).1 = .error .pointerBeyondRecord := by
  have asked := ask_of_calm (.size id) size found
  rcases h : d.ask (.size id) with ⟨outcome, d₁⟩
  rw [h] at asked
  obtain ⟨rfl, -⟩ := asked
  rw [perform_rewritePointer named h, if_neg (by omega), if_pos beyond]

/-- One pending fault for the size query or the write makes it fail, and is used up. -/
theorem rewritePointer_of_fault (pointer : UInt8) (place : position < file.recordLen)
    {op : Operation} (of : op = .size ∨ op = .write) (fault : d.card.faults = [(op, id)]) :
    ∃ e d', (rewritePointer files offset position pointer).perform d = (.error e, d') ∧
      d'.block = d.block ∧ d.card.Reads d'.card ∧ d'.card.faults = [] := by
  have reads : d.card.Reads (d.ask (.size id)).2.card := ask_reads (.inl fun h => by cases h)
  have block := block_ask d (.size id)
  rcases of with rfl | rfl
  · have struck := ask_of_fault (d := d) (.size id)
      (by simp [Calm, fault, Request.op, Request.file])
    rcases h : d.ask (.size id) with ⟨outcome, d₁⟩
    rw [h] at struck reads block
    obtain ⟨rfl, faults⟩ := struck
    unfold rewritePointer
    simp only [Action.perform_bind, Action.perform_lift, fileOf_eq_ok_iff.2 named, perform_sizeOf,
      h]
    refine ⟨_, _, rfl, block, reads, faults.trans ?_⟩
    rw [fault]
    exact List.erase_cons_head ..
  · have asked := ask_of_calm (d := d) (.size id) (by simp [Calm, fault, Request.op]) found
    rcases h : d.ask (.size id) with ⟨outcome, d₁⟩
    rw [h] at asked reads block
    obtain ⟨rfl, faults⟩ := asked
    have faults : d₁.card.faults = [(.write, id)] := faults.trans fault
    obtain ⟨e, d', failed, block', reads', used⟩ := writeThrough_of_fault (d := d₁)
      (offset + 1) (pointerRecord (d.block.pointer? offset) file.recordLen position pointer)
      (·.setPointer offset
        (pointerRecord (d.block.pointer? offset) file.recordLen position pointer))
      .pointerRewritten (show (Operation.write, id) ∈ _ by simp [faults])
    rw [perform_rewritePointer named h, if_neg (by omega), if_neg (by omega)]
    refine ⟨e, d', failed, block'.trans block, reads.trans reads', used.trans ?_⟩
    rw [faults]
    exact List.erase_cons_head ..

end

end

/-! ## The whole edit -/

section

variable {files : Reference.Block} {linkage : Linkage} {kind : FieldKind} {offset slot : Nat}
  {old new : Text} {d : Desk} {id : FileId} {file : RecordFile} {record : Bytes}

theorem edit_of_unresolved {e : Error} (named : files.file? (.ofKind kind) = some id)
    (unresolved : d.block.resolveSlot kind linkage offset old = .error e) :
    (edit files linkage kind offset old new).perform d = (.error e, d) := by
  unfold edit
  simp only [Action.perform_bind, Action.perform_lift, fileOf_eq_ok_iff.2 named, perform_current,
    unresolved]

theorem perform_edit (named : files.file? (.ofKind kind) = some id)
    (resolved : d.block.resolveSlot kind linkage offset old = .ok slot) {d₁ : Desk}
    (asked : d.ask (.size id) = (.ok file.geometry, d₁)) :
    (edit files linkage kind offset old new).perform d =
      match checkSlot file.geometry slot, encodeField kind linkage offset file.geometry new with
      | .error e, _ => (.error e, d₁)
      | .ok _, .error e => (.error e, d₁)
      | .ok _, .ok record =>
        match (writeThrough id slot record (putRecord kind slot record)
          (.slotWritten kind)).perform d₁ with
        | (.error e, d₂) => (.error e, d₂)
        | (.ok _, d₂) =>
          settle kind offset record ((relink files linkage offset slot old new).perform d₂) := by
  unfold edit
  simp only [Action.perform_bind, Action.perform_lift, fileOf_eq_ok_iff.2 named, perform_current,
    resolved, perform_sizeOf, asked, perform_change]
  cases checkSlot file.geometry slot with
  | error e => rfl
  | ok u =>
    cases encodeField kind linkage offset file.geometry new with
    | error e => rfl
    | ok record =>
      have same : writeSlot id kind slot record =
        writeThrough id slot record (putRecord kind slot record) (.slotWritten kind) := rfl
      simp only [same]
      rcases (writeThrough id slot record (putRecord kind slot record)
        (.slotWritten kind)).perform d₁ with ⟨e | u, d₂⟩
      · rfl
      · simp only
        rcases (relink files linkage offset slot old new).perform d₂ with ⟨e | u, d₃⟩ <;> rfl

/-- An edit is refused and changes nothing, or it writes the record that it aimed at and goes on
to the pointer byte. -/
theorem edit_cases (files : Reference.Block) (linkage : Linkage) (kind : FieldKind) (offset : Nat)
    (old new : Text) (d : Desk) :
    (∃ e d', (edit files linkage kind offset old new).perform d = (.error e, d') ∧
      d'.block = d.block ∧ d.card.Reads d'.card ∧ e ≠ .pointerBeyondRecord) ∨
    ∃ id file slot record d', Aim files linkage kind offset old new d id file slot record ∧
      Wrote (putRecord kind slot record) d id file slot record d' ∧
      (edit files linkage kind offset old new).perform d =
        settle kind offset record ((relink files linkage offset slot old new).perform d') := by
  cases named : fileOf files (.ofKind kind) with
  | error e =>
    left
    unfold edit
    simp only [Action.perform_bind, Action.perform_lift, named]
    exact ⟨_, _, rfl, rfl, .refl _, error_of_fileOf named⟩
  | ok id =>
    rw [fileOf_eq_ok_iff] at named
    cases resolved : d.block.resolveSlot kind linkage offset old with
    | error e =>
      left
      rw [edit_of_unresolved named resolved]
      exact ⟨_, _, rfl, rfl, .refl _, error_of_resolveSlot resolved⟩
    | ok slot =>
      have reads : d.card.Reads (d.ask (.size id)).2.card := ask_reads (.inl fun h => by cases h)
      have block := block_ask d (.size id)
      rcases asked : d.ask (.size id) with ⟨e | size, d₁⟩
      · left
        rw [asked] at reads block
        unfold edit
        simp only [Action.perform_bind, Action.perform_lift, fileOf_eq_ok_iff.2 named,
          perform_current, resolved, perform_sizeOf, asked]
        exact ⟨_, _, rfl, block, reads, error_of_ask (congrArg Prod.fst asked)⟩
      · obtain ⟨file, found, rfl⟩ := size_of_ask (congrArg Prod.fst asked)
        have faults := faults_ask_of_ok (congrArg Prod.fst asked)
        rw [asked] at reads block faults
        rw [perform_edit named resolved asked]
        cases inside : checkSlot file.geometry slot with
        | error e => exact .inl ⟨_, _, rfl, block, reads, error_of_checkSlot inside⟩
        | ok u =>
          cases encoded : encodeField kind linkage offset file.geometry new with
          | error e => exact .inl ⟨_, _, rfl, block, reads, error_of_encodeField encoded⟩
          | ok record =>
            obtain ⟨low, high⟩ := checkSlot_eq_ok_iff.1 inside
            dsimp only
            rcases writeThrough_cases d₁ id slot record (putRecord kind slot record)
              (.slotWritten kind) with
              ⟨e, d₂, failed, block', reads', -, early⟩ | ⟨file', d₂, ok, w⟩
            · rw [failed]
              exact .inl ⟨e, d₂, rfl, block'.trans block, reads.trans reads', early⟩
            · rw [ok]
              have w := w.after reads faults block
              have same := w.found
              rw [found] at same
              cases same
              exact .inr ⟨id, file, slot, record, d₂, ⟨named, found, resolved, low, high, encoded⟩,
                w, rfl⟩

/-- Without faults on the file of the field an edit that has an aim writes its record. -/
theorem edit_of_aim (aim : Aim files linkage kind offset old new d id file slot record)
    (size : (Operation.size, id) ∉ d.card.faults) (write : (Operation.write, id) ∉ d.card.faults) :
    ∃ d', Wrote (putRecord kind slot record) d id file slot record d' ∧
      (edit files linkage kind offset old new).perform d =
        settle kind offset record ((relink files linkage offset slot old new).perform d') := by
  have asked := ask_of_calm (.size id) size aim.found
  have reads : d.card.Reads (d.ask (.size id)).2.card := ask_reads (.inl fun h => by cases h)
  have block := block_ask d (.size id)
  rcases h : d.ask (.size id) with ⟨outcome, d₁⟩
  rw [h] at asked reads block
  obtain ⟨rfl, faults⟩ := asked
  obtain ⟨d₂, ok, w⟩ := writeThrough_of_calm (d := d₁) slot record (putRecord kind slot record)
    (.slotWritten kind)
    (by rw [show d₁.card.faults = _ from faults]; exact write)
    (by rw [reads.file?]; exact aim.found) aim.low aim.high (encodeField_spec aim.encoded).1
  refine ⟨d₂, w.after reads faults block, ?_⟩
  rw [perform_edit aim.named aim.resolved h, checkSlot_eq_ok_iff.2 ⟨aim.low, aim.high⟩, aim.encoded]
  dsimp only
  rw [ok]

end

/-- How an edit ends: with what result, and what it has done by then. -/
inductive Ended (refs : Reference.Block) (linkage : Linkage) (kind : FieldKind) (offset : Nat)
    (old new : Text) (d : Desk) : Except Error Unit → Desk → Prop
  /-- it has done nothing -/
  | refused (e : Error) (d' : Desk) (block : d'.block = d.block) (reads : d.card.Reads d'.card)
    (early : e ≠ .pointerBeyondRecord) :
    Ended refs linkage kind offset old new d (.error e) d'
  /-- it has written the record of the field and could not write the pointer byte -/
  | halted (id : FileId) (file : RecordFile) (slot : Nat) (record : Bytes) (d₁ : Desk)
    (position : Nat) (e : Error) (d' : Desk)
    (aim : Aim refs linkage kind offset old new d id file slot record)
    (wrote : Wrote (putRecord kind slot record) d id file slot record d₁)
    (pointed : linkage = .type2 position) (differ : old.isEmpty ≠ new.isEmpty)
    (failed : (rewritePointer refs offset position (pointerTo slot new)).perform d₁ =
      (.error e, d'))
    (block : d'.block = d₁.block) (reads : d₁.card.Reads d'.card)
    (why : d₁.card.failures < d'.card.failures ∨ ∀ id file, refs.file? .iap = some id →
      d₁.card.file? id = some file → file.records.length ≤ offset ∨ file.recordLen ≤ position) :
    Ended refs linkage kind offset old new d (.error e) d'
  /-- it has written the record of the field, and there is no pointer byte to write -/
  | settled (id : FileId) (file : RecordFile) (slot : Nat) (record : Bytes) (d₁ : Desk)
    (aim : Aim refs linkage kind offset old new d id file slot record)
    (wrote : Wrote (putRecord kind slot record) d id file slot record d₁)
    (idle : linkage = .type1 ∨ old.isEmpty = new.isEmpty) :
    Ended refs linkage kind offset old new d (.ok ())
      { d₁ with block := applyValue kind offset record d₁.block }
  /-- it has written the record of the field and the pointer byte -/
  | relinked (id : FileId) (file : RecordFile) (slot : Nat) (record : Bytes) (d₁ : Desk)
    (position : Nat) (iap : FileId) (pointers : RecordFile) (pointer : Bytes) (d₂ : Desk)
    (aim : Aim refs linkage kind offset old new d id file slot record)
    (wrote : Wrote (putRecord kind slot record) d id file slot record d₁)
    (pointed : linkage = .type2 position) (differ : old.isEmpty ≠ new.isEmpty)
    (relinked : Relinked refs offset position (pointerTo slot new) d₁ iap pointers pointer d₂) :
    Ended refs linkage kind offset old new d (.ok ())
      { d₂ with block := applyValue kind offset record d₂.block }

theorem edit_ended (refs : Reference.Block) (linkage : Linkage) (kind : FieldKind) (offset : Nat)
    (old new : Text) (d : Desk) :
    Ended refs linkage kind offset old new d
      ((edit refs linkage kind offset old new).perform d).1
      ((edit refs linkage kind offset old new).perform d).2 := by
  rcases edit_cases refs linkage kind offset old new d with
    ⟨e, d', failed, block, reads, early⟩ | ⟨id, file, slot, record, d₁, aim, wrote, eq⟩
  · rw [failed]
    exact .refused e d' block reads early
  · rw [eq]
    by_cases idle : linkage = .type1 ∨ old.isEmpty = new.isEmpty
    · rw [relink_idle d₁ idle]
      exact .settled id file slot record d₁ aim wrote idle
    · obtain ⟨pointed, differ⟩ := not_or.1 idle
      cases linkage with
      | type1 => exact absurd rfl pointed
      | type2 position =>
        rw [relink_eq differ]
        rcases rewritePointer_cases refs offset position (pointerTo slot new) d₁ with
          ⟨e, d', failed, block, reads, why⟩ | ⟨iap, pointers, pointer, d₂, ok, relinked⟩
        · rw [failed]
          exact .halted id file slot record d₁ position e d' aim wrote rfl differ failed block reads
            why
        · rw [ok]
          exact .relinked id file slot record d₁ position iap pointers pointer d₂ aim wrote rfl
            differ relinked

end UsimPhonebook.Desk
