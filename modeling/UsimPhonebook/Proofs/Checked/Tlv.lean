import UsimPhonebook.Checked.Tlv
import UsimPhonebook.Proofs.Tlv
import UsimPhonebook.Proofs.Traversal

/-! # A cursor stays in its buffer

A cursor and a reader that have the same bytes ahead (`Cursor.At`) hand out the same object and have
the same bytes ahead afterwards (`Cursor.At.next`), however often they are called
(`Cursor.At.after`). So a cursor never passes the end of its buffer, and it meets the last object
after no more calls than the buffer has bytes (`objects?_eq`).

The reference table that is read by cursors is the one that the records describe (`parse?_eq`).
-/

namespace UsimPhonebook.Checked

namespace Cursor

/-- The reader that has the same bytes ahead as the cursor. -/
structure At (c : Cursor) (r : Tlv.Reader) : Prop where
  within : c.offset ≤ c.buffer.length
  ahead : c.buffer.drop c.offset = r.ahead
  offset : c.offset = r.offset
  finished : c.finished = r.finished

variable {c : Cursor} {r : Tlv.Reader}

theorem at_start (buffer : Bytes) : At { buffer } (.start buffer) :=
  ⟨Nat.zero_le _, rfl, rfl, rfl⟩

theorem At.remaining?_eq (h : c.At r) : c.remaining? = some r.remaining := by
  unfold remaining? Tlv.Reader.remaining
  rw [sub?_of_le h.within, ← h.ahead, List.length_drop]

/-- A header is the tag and one or two of the bytes behind it. -/
theorem header?_cases {behind : Bytes} {length header : Nat}
    (found : header? behind = some (length, header)) :
    ∃ skip, header = skip + 1 ∧ skip ≤ behind.length := by
  cases behind with
  | nil => cases found
  | cons first rest =>
    simp only [header?] at found
    split at found
    · cases found
      exact ⟨1, rfl, Nat.le_add_left _ _⟩
    split at found
    · cases rest with
      | nil => cases found
      | cons second rest =>
        dsimp only at found
        split at found
        · cases found
        · cases found
          exact ⟨2, rfl, Nat.le_add_left _ _⟩
    · cases found

/-- To read an object is to read its header and to take the value behind it. -/
theorem read?_cons (tag : UInt8) (behind : Bytes) :
    Tlv.Object.read? (tag :: behind) =
      if Tlv.isPadding tag then none
      else (header? behind).bind fun (length, header) =>
        Tlv.Object.take? tag length (behind.drop (header - 1)) := by
  cases behind with
  | nil => exact (ite_self _).symm
  | cons first rest =>
    simp only [Tlv.Object.read?, header?]
    split
    · rfl
    split
    · rfl
    split
    · cases rest with
      | nil => rfl
      | cons second rest =>
        dsimp only
        split <;> rfl
    · rfl

/-- A cursor finds the object that is read from the bytes ahead, and its end where that leaves
off. -/
theorem object?_eq (h : c.At r) : c.object? =
    (Tlv.Object.read? r.ahead).map fun (o, left) => (o, c.buffer.length - left.length) := by
  have ahead := h.ahead
  unfold object?
  rw [slice?_length h.within, ahead]
  cases bytes : r.ahead with
  | nil => rfl
  | cons tag behind =>
    rw [bytes] at ahead
    dsimp only
    rw [read?_cons]
    by_cases padding : Tlv.isPadding tag = true
    · rw [if_pos padding, if_pos padding]
      rfl
    rw [if_neg padding, if_neg padding]
    cases found : header? behind with
    | none => rfl
    | some place =>
      obtain ⟨length, header⟩ := place
      obtain ⟨skip, rfl, read⟩ := header?_cases found
      -- the header was found ahead, so the value starts within the buffer, if only at its end
      have room : c.buffer.length = c.offset + (behind.length + 1) := by
        have ahead := congrArg List.length ahead
        rw [List.length_drop, List.length_cons] at ahead
        have within := h.within
        omega
      have rest : c.buffer.drop (c.offset + (skip + 1)) = behind.drop skip := by
        rw [← List.drop_drop, ahead, List.drop_succ_cons]
      rw [Option.bind_eq_bind, Option.bind_some, Option.bind_some]
      dsimp only
      rw [slice?_add (by omega) rest, Nat.add_sub_cancel, Tlv.Object.take?]
      by_cases long : length ≤ (behind.drop skip).length
      · have stop : c.buffer.length - ((behind.drop skip).drop length).length =
            c.offset + (skip + 1) + length := by
          rw [List.length_drop] at long
          rw [List.length_drop, List.length_drop]
          omega
        rw [if_pos long, if_pos long, Option.map_some, stop]
        rfl
      · rw [if_neg long, if_neg long]
        rfl

theorem At.next (h : c.At r) : c.next.1 = r.next.1 ∧ c.next.2.At r.next.2 := by
  unfold Cursor.next Tlv.Reader.next
  rw [h.finished, object?_eq h]
  split
  · exact ⟨rfl, h⟩
  · cases found : Tlv.Object.read? r.ahead with
    | none => exact ⟨rfl, h.within, h.ahead, h.offset, rfl⟩
    | some place =>
      obtain ⟨o, left⟩ := place
      have split := (Tlv.Object.read?_eq_some_iff.1 found).2
      have room : c.buffer.length - c.offset = o.write.length + left.length := by
        rw [← List.length_drop, h.ahead, split, List.length_append]
      have within := h.within
      have stop : c.buffer.length - left.length = c.offset + o.write.length := by omega
      refine ⟨rfl, Nat.sub_le _ _, ?_, ?_, rfl⟩
      · show c.buffer.drop (c.buffer.length - left.length) = left
        rw [stop, ← List.drop_drop, h.ahead, split, List.drop_left]
      · show c.buffer.length - left.length = r.offset + (r.ahead.length - left.length)
        rw [stop, split, List.length_append, ← h.offset, Nat.add_sub_cancel]

theorem At.after (h : c.At r) (n : Nat) : (c.after n).At (r.after n) := by
  induction n generalizing c r with
  | zero => exact h
  | succ n ih => exact ih h.next.2

/-- A run that has a call for every byte ahead, and one more, meets the end. -/
theorem objects?_eq (h : c.At r) (running : r.finished = false) {calls : Nat}
    (enough : r.ahead.length < calls) : objects? calls c = some (Tlv.objects r.ahead) := by
  induction calls generalizing c r with
  | zero => exact absurd enough (Nat.not_lt_zero _)
  | succ calls ih =>
    obtain ⟨same, onward⟩ := h.next
    unfold objects?
    cases found : Tlv.Object.read? r.ahead with
    | none =>
      have bare := Tlv.Object.read?_eq_none_iff.1 found
      have nothing : c.next = (none, c.next.2) :=
        Prod.ext (same.trans (Tlv.Reader.next_of_bare bare).1) rfl
      rw [nothing, Tlv.objects_of_bare bare]
    | some place =>
      obtain ⟨o, left⟩ := place
      obtain ⟨valid, split⟩ := Tlv.Object.read?_eq_some_iff.1 found
      obtain ⟨handed, rest, running⟩ := Tlv.Reader.next_of_write running split valid
      have handed : c.next = (some o, c.next.2) := Prod.ext (same.trans handed) rfl
      have shorter : r.next.2.ahead.length < calls := by
        have some_byte := List.length_pos_iff.2 o.write_ne_nil
        rw [split, List.length_append] at enough
        rw [rest]
        omega
      rw [handed]
      show (objects? calls c.next.2).map (o :: ·) = _
      rw [ih onward running shorter, rest, split, Tlv.objects_write valid]
      rfl

end Cursor

theorem objects?_eq (buffer : Bytes) : objects? buffer = some (Tlv.objects buffer) :=
  Cursor.objects?_eq (Cursor.at_start buffer) rfl (Nat.lt_succ_self _)

theorem children?_eq (record : Bytes) : children? record = some (Reference.children record) := by
  have each (container : Tlv.Object) :
      childrenOf? container = some (Reference.childrenOf container) := by
    unfold childrenOf?
    rw [objects?_eq]
    rfl
  unfold children?
  rw [bind_of_eq_some (objects?_eq record), bind_of_eq_some (mapM_eq_some_map fun c _ => each c),
    ← List.flatMap_def]
  rfl

theorem parse?_eq (records : List Bytes) :
    parse? records = some (Reference.Table.parse records) := by
  unfold parse?
  rw [bind_of_eq_some (mapM_eq_some_map fun record _ => children?_eq record), List.zipIdx_map,
    List.map_map, ← List.flatMap_def]
  rfl

end UsimPhonebook.Checked
