import UsimPhonebook.Tlv
import Mathlib.Data.List.Basic

/-! # Reading tag-length-value objects back

Reading undoes writing. A buffer splits in exactly one way into written objects and a tail that
starts none (`exists_split`, `objects_written`), and the reader hands out the objects of that
split and stops in front of the tail.

* `Object.read?_eq_some_iff`, `Object.read?_eq_none_iff` : one object at the front of a buffer
* `Reader.next_after`, `Reader.ahead_after` : any number of steps over written objects
* `objects_written`, `leftover_written` : all objects at once
* `reader_inverts_writer` : both directions, for every list of objects and for every buffer
-/

namespace UsimPhonebook.Tlv

/-! ## Objects and their bytes -/

/-- An object that can be written: its tag is no padding and its length fits in a byte. -/
structure Object.Valid (o : Object) : Prop where
  tag : o.tag ≠ 0x00 ∧ o.tag ≠ 0xFF
  length : o.value.length ≤ 255

def written (os : List Object) : Bytes := os.flatMap Object.write

@[simp] theorem written_nil : written [] = [] := rfl

@[simp] theorem written_cons (o : Object) (os : List Object) :
    written (o :: os) = o.write ++ written os := rfl

/-- No prefix of the bytes is a written object. -/
def Bare (bytes : Bytes) : Prop := ∀ o : Object, o.Valid → ¬ o.write <+: bytes

theorem isPadding_eq_false_iff (tag : UInt8) :
    isPadding tag = false ↔ tag ≠ 0x00 ∧ tag ≠ 0xFF := by
  unfold isPadding
  simp

theorem Object.write_ne_nil (o : Object) : o.write ≠ [] := by
  unfold Object.write
  exact List.cons_ne_nil _ _

/-! ## One object at the front -/

namespace Object

theorem take?_eq_some_iff {tag : UInt8} {length : Nat} {rest left : Bytes} {o : Object} :
    take? tag length rest = some (o, left) ↔
      o.tag = tag ∧ o.value.length = length ∧ rest = o.value ++ left := by
  unfold take?
  constructor
  · intro h
    split at h
    · next enough =>
      cases h
      exact ⟨rfl, List.length_take_of_le enough, (List.take_append_drop length rest).symm⟩
    · cases h
  · rintro ⟨rfl, rfl, rfl⟩
    rw [if_pos (by simp), List.take_left, List.drop_left]

/-- A byte below 128 is the short form of the length it stands for. -/
theorem lengthBytes_of_short {first : UInt8} (h : first < 0x80) :
    lengthBytes first.toNat = [first] := by
  have short : first.toNat < 128 := UInt8.lt_iff_toNat_lt.1 h
  rw [lengthBytes, if_pos short, UInt8.ofNat_toNat]

/-- Any other byte is the second one of the long form. -/
theorem lengthBytes_of_long {second : UInt8} (h : ¬ second < 0x80) :
    lengthBytes second.toNat = [longLength, second] := by
  have long : ¬ second.toNat < 128 := fun short => h (UInt8.lt_iff_toNat_lt.2 short)
  rw [lengthBytes, if_neg long, UInt8.ofNat_toNat]

theorem read?_write (o : Object) (h : o.Valid) (left : Bytes) :
    read? (o.write ++ left) = some (o, left) := by
  have plain : ¬ isPadding o.tag = true := by
    rw [Bool.not_eq_true]
    exact (isPadding_eq_false_iff o.tag).2 h.tag
  obtain ⟨byte, length⟩ : ∃ byte : UInt8, byte.toNat = o.value.length :=
    ⟨UInt8.ofNat o.value.length, UInt8.toNat_ofNat_of_lt' (Nat.lt_succ_of_le h.length)⟩
  have taken : take? o.tag byte.toNat (o.value ++ left) = some (o, left) :=
    take?_eq_some_iff.2 ⟨rfl, length.symm, rfl⟩
  -- `0x81` is no short length and starts the long form, whose own byte is none either
  by_cases short : byte < 0x80
  · have shape : o.write ++ left = o.tag :: byte :: (o.value ++ left) := by
      simp [write, ← length, lengthBytes_of_short short]
    rw [shape]
    simpa only [read?, if_neg plain, if_pos short] using taken
  · have shape : o.write ++ left = o.tag :: longLength :: byte :: (o.value ++ left) := by
      simp [write, ← length, lengthBytes_of_long short]
    rw [shape]
    have large : ¬ longLength < 0x80 := by decide
    simpa only [read?, if_neg plain, if_neg large, if_neg short, if_true] using taken

theorem write_of_read? {buffer left : Bytes} {o : Object} (h : read? buffer = some (o, left)) :
    o.Valid ∧ buffer = o.write ++ left := by
  unfold read? at h
  split at h
  · next tag first rest =>
    split at h
    · cases h
    next plain =>
    have plain := (isPadding_eq_false_iff tag).1 (Bool.eq_false_iff.2 plain)
    split at h
    · next short =>
      obtain ⟨rfl, length, rfl⟩ := take?_eq_some_iff.1 h
      have bound := first.toNat_lt
      refine ⟨⟨plain, by omega⟩, ?_⟩
      simp [write, length, lengthBytes_of_short short]
    split at h
    · next long =>
      split at h
      · next second rest =>
        split at h
        · cases h
        next large =>
        obtain ⟨rfl, length, rfl⟩ := take?_eq_some_iff.1 h
        have bound := second.toNat_lt
        refine ⟨⟨plain, by omega⟩, ?_⟩
        simp [write, length, lengthBytes_of_long large, long]
      · cases h
    · cases h
  · cases h

/-- An object is read exactly where it was written. -/
theorem read?_eq_some_iff {buffer left : Bytes} {o : Object} :
    read? buffer = some (o, left) ↔ o.Valid ∧ buffer = o.write ++ left := by
  constructor
  · exact write_of_read?
  · rintro ⟨valid, rfl⟩
    exact read?_write o valid left

theorem read?_eq_none_iff {buffer : Bytes} : read? buffer = none ↔ Bare buffer := by
  constructor
  · rintro none o valid ⟨left, rfl⟩
    rw [read?_write o valid left] at none
    cases none
  · intro bare
    cases found : read? buffer with
    | none => rfl
    | some pair =>
      obtain ⟨valid, split⟩ := write_of_read? found
      exact absurd ⟨pair.2, split.symm⟩ (bare pair.1 valid)

end Object

/-! ## All objects of a buffer -/

theorem exists_split (buffer : Bytes) :
    ∃ os tail, (∀ o ∈ os, o.Valid) ∧ Bare tail ∧ buffer = written os ++ tail := by
  cases found : Object.read? buffer with
  | none =>
    exact ⟨[], buffer, by simp, Object.read?_eq_none_iff.1 found, rfl⟩
  | some pair =>
    obtain ⟨o, left⟩ := pair
    obtain ⟨valid, split⟩ := Object.write_of_read? found
    have shorter : left.length < buffer.length := by
      rw [split, List.length_append]
      have := List.length_pos_of_ne_nil o.write_ne_nil
      omega
    obtain ⟨os, tail, rest, bare, rfl⟩ := exists_split left
    refine ⟨o :: os, tail, ?_, bare, ?_⟩
    · exact List.forall_mem_cons.2 ⟨valid, rest⟩
    · rw [split, written_cons, List.append_assoc]
termination_by buffer.length

theorem objectsFrom_eq_drop (skip : Nat) (buffer : Bytes) :
    objectsFrom skip buffer = objects (buffer.drop skip) := by
  induction buffer generalizing skip with
  | nil => simp [objects, objectsFrom]
  | cons first rest ih =>
    cases skip with
    | zero => rfl
    | succ skip => exact ih skip

theorem objects_of_bare {tail : Bytes} (h : Bare tail) : objects tail = [] := by
  cases tail with
  | nil => rfl
  | cons first rest =>
    unfold objects objectsFrom
    rw [Object.read?_eq_none_iff.2 h]

theorem objects_write {o : Object} (h : o.Valid) (left : Bytes) :
    objects (o.write ++ left) = o :: objects left := by
  obtain ⟨first, rest, shape⟩ := List.exists_cons_of_ne_nil o.write_ne_nil
  have read := Object.read?_write o h left
  rw [shape, List.cons_append] at read ⊢
  unfold objects
  rw [objectsFrom, read]
  simp only [List.length_append, Nat.add_sub_cancel]
  rw [objectsFrom_eq_drop, List.drop_left]
  rfl

theorem objects_written {os : List Object} {tail : Bytes} (valid : ∀ o ∈ os, o.Valid)
    (bare : Bare tail) : objects (written os ++ tail) = os := by
  induction os with
  | nil => exact objects_of_bare bare
  | cons o os ih =>
    obtain ⟨first, rest⟩ := List.forall_mem_cons.1 valid
    rw [written_cons, List.append_assoc, objects_write first, ih rest]

theorem leftover_written {os : List Object} {tail : Bytes} (valid : ∀ o ∈ os, o.Valid)
    (bare : Bare tail) : leftover (written os ++ tail) = tail := by
  unfold leftover
  rw [objects_written valid bare]
  exact List.drop_left

/-- A buffer is its objects and what they leave over, and there is no other such split. -/
theorem split_unique {buffer tail : Bytes} {os : List Object} :
    (∀ o ∈ os, o.Valid) ∧ Bare tail ∧ buffer = written os ++ tail ↔
      os = objects buffer ∧ tail = leftover buffer := by
  constructor
  · rintro ⟨valid, bare, rfl⟩
    exact ⟨(objects_written valid bare).symm, (leftover_written valid bare).symm⟩
  · rintro ⟨rfl, rfl⟩
    obtain ⟨os, tail, valid, bare, rfl⟩ := exists_split buffer
    rw [objects_written valid bare, leftover_written valid bare]
    exact ⟨valid, bare, rfl⟩

/-! ## The reader -/

namespace Reader

/-- The reader after `n` calls for the next object. -/
def after (r : Reader) : Nat → Reader
  | 0 => r
  | n + 1 => r.next.2.after n

theorem next_of_write {r : Reader} {o : Object} {left : Bytes} (running : r.finished = false)
    (ahead : r.ahead = o.write ++ left) (valid : o.Valid) :
    r.next.1 = some o ∧ r.next.2.ahead = left ∧ r.next.2.finished = false := by
  unfold next
  rw [running, if_neg Bool.false_ne_true, ahead, Object.read?_write o valid left]
  exact ⟨rfl, rfl, rfl⟩

theorem next_of_bare {r : Reader} (bare : Bare r.ahead) :
    r.next.1 = none ∧ r.next.2.ahead = r.ahead := by
  unfold next
  rw [Object.read?_eq_none_iff.2 bare]
  split <;> exact ⟨rfl, rfl⟩

theorem stays_of_bare {r : Reader} (bare : Bare r.ahead) (n : Nat) :
    (r.after n).next.1 = none ∧ (r.after n).ahead = r.ahead := by
  induction n generalizing r with
  | zero => exact ⟨(next_of_bare bare).1, rfl⟩
  | succ n ih =>
    have kept := (next_of_bare bare).2
    obtain ⟨nothing, stays⟩ := ih (r := r.next.2) (kept ▸ bare)
    exact ⟨nothing, stays.trans kept⟩

/-- What `n` steps over written objects lead to: the objects from the `n`th on lie ahead. -/
theorem ahead_after {r : Reader} {os : List Object} {tail : Bytes} (running : r.finished = false)
    (valid : ∀ o ∈ os, o.Valid) (bare : Bare tail) (ahead : r.ahead = written os ++ tail)
    (n : Nat) :
    (r.after n).ahead = written (os.drop n) ++ tail ∧ (r.after n).next.1 = os[n]? := by
  induction os generalizing r n with
  | nil =>
    have ahead : r.ahead = tail := ahead
    obtain ⟨nothing, stays⟩ := stays_of_bare (ahead ▸ bare) n
    refine ⟨?_, by simpa using nothing⟩
    rw [stays, ahead, List.drop_nil]
    rfl
  | cons o os ih =>
    obtain ⟨first, rest⟩ := List.forall_mem_cons.1 valid
    have split : r.ahead = o.write ++ (written os ++ tail) := by
      rw [ahead, written_cons, List.append_assoc]
    obtain ⟨handed, left, running⟩ := next_of_write running split first
    cases n with
    | zero => exact ⟨ahead, handed⟩
    | succ n => exact ih running rest left n

theorem remaining_after {os : List Object} {tail : Bytes} (valid : ∀ o ∈ os, o.Valid)
    (bare : Bare tail) {n : Nat} (h : os.length ≤ n) :
    ((start (written os ++ tail)).after n).remaining = tail.length := by
  have ahead : ((start (written os ++ tail)).after n).ahead = _ :=
    (ahead_after rfl valid bare rfl n).1
  unfold remaining
  rw [ahead, List.drop_of_length_le h]
  rfl

/-- The reader hands out the objects of its buffer and stops in front of what they leave over. -/
theorem reads_objects (buffer : Bytes) (n : Nat) :
    ((start buffer).after n).next.1 = (objects buffer)[n]? ∧
      ((objects buffer).length ≤ n →
        ((start buffer).after n).remaining = (leftover buffer).length) := by
  obtain ⟨os, tail, valid, bare, rfl⟩ := exists_split buffer
  rw [objects_written valid bare, leftover_written valid bare]
  exact ⟨(ahead_after rfl valid bare rfl n).2, remaining_after valid bare⟩

end Reader

/-! ## Reading undoes writing -/

/-- The reader is the inverse of the writer. Over written objects and a tail that starts none it
yields these objects in order, then nothing on any further call, and the tail remains. Over any
buffer it yields written objects, and the buffer is these and the bytes that remain, which start
no object. -/
theorem reader_inverts_writer :
    (∀ (os : List Object) (tail : Bytes), (∀ o ∈ os, o.Valid) → Bare tail →
      ∀ n, ((Reader.start (written os ++ tail)).after n).next.1 = os[n]? ∧
        (os.length ≤ n → ((Reader.start (written os ++ tail)).after n).remaining = tail.length)) ∧
    ∀ buffer : Bytes, ∃ os : List Object, (∀ o ∈ os, o.Valid) ∧
      (∀ n, ((Reader.start buffer).after n).next.1 = os[n]?) ∧
      ∀ n, os.length ≤ n →
        ∃ tail, tail.length = ((Reader.start buffer).after n).remaining ∧
          buffer = written os ++ tail ∧ Bare tail := by
  constructor
  · intro os tail valid bare n
    exact ⟨(Reader.ahead_after rfl valid bare rfl n).2, Reader.remaining_after valid bare⟩
  · intro buffer
    obtain ⟨valid, bare, split⟩ := split_unique.2 ⟨rfl, rfl⟩
    refine ⟨objects buffer, valid, fun n => (Reader.reads_objects buffer n).1, ?_⟩
    intro n beyond
    exact ⟨leftover buffer, ((Reader.reads_objects buffer n).2 beyond).symm, split, bare⟩

/-- A short object, an object in the long form and a cut-off one behind them. -/
theorem reader_inverts_writer_of_two :
    let short : Object := ⟨0xA8, [1, 2]⟩
    let long : Object := ⟨0xA9, List.replicate 128 7⟩
    let reader := Reader.start (written [short, long] ++ [0xAA, 0x05, 1])
    reader.next.1 = some short ∧ (reader.after 1).next.1 = some long ∧
      (reader.after 2).next.1 = none ∧ (reader.after 7).remaining = 3 := by
  have valid : ∀ o ∈ ([⟨0xA8, [1, 2]⟩, ⟨0xA9, List.replicate 128 7⟩] : List Object), o.Valid :=
    List.forall_mem_cons.2 ⟨⟨by decide, by decide⟩,
      List.forall_mem_cons.2 ⟨⟨by decide, by simp⟩, List.forall_mem_nil _⟩⟩
  have bare : Bare [0xAA, 0x05, 1] := Object.read?_eq_none_iff.1 rfl
  have reads := reader_inverts_writer.1 _ _ valid bare
  exact ⟨(reads 0).1, (reads 1).1, (reads 2).1, (reads 7).2 (by decide)⟩

end UsimPhonebook.Tlv
