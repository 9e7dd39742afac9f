import UsimPhonebook.Checked.Block
import UsimPhonebook.Proofs.Card.BlockFiles
import UsimPhonebook.Proofs.Checked.Codec
import UsimPhonebook.Proofs.Field.Store
import UsimPhonebook.Proofs.Session.Position

/-! # No index into a store or the blocks is out of bounds

The vectors of a store stay of one length: each of the four things that are done to them gives
those of a store again (`Shelf.new_eq`, `Shelf.markUsed_ofStore`, `Shelf.clearFlags_ofStore`,
`Shelf.put?_ofStore`), so that an index which is within the records is within the flags. A pointer
names a slot from 1 on (`linkedSlot?_eq`), and the block that is found for a position is there
(`locateFrom?_eq`). So what a join, a write or a question to the session takes by index is there,
and each of them has a result, that of its counterpart.
-/

namespace UsimPhonebook.Checked

/-! ## Stores -/

theorem set?_resize {α : Type} {items : List α} {index : Nat} (short : items.length ≤ index)
    (item new : α) : set? (resize items (index + 1) item) index new =
      some (items ++ List.replicate (index - items.length) item ++ [new]) := by
  have grown : resize items (index + 1) item =
      items ++ List.replicate (index - items.length) item ++ [item] := by
    unfold resize
    rw [List.take_of_length_le (by omega), show index + 1 - items.length =
      index - items.length + 1 by omega, List.replicate_succ', List.append_assoc]
  rw [grown]
  exact set?_last (by simp; omega) _ _

namespace Shelf

theorem store?_ofStore (s : FieldStore) : (ofStore s).store? = some s := by
  have fused : List.zipWith FieldSlot.mk s.records s.flags = s.slots := by
    unfold FieldStore.records FieldStore.flags
    rw [List.zipWith_map, List.zipWith_self]
    exact List.map_id _
  unfold store? ofStore
  rw [if_pos (by simp), fused]

theorem new_eq (records : List Bytes) : new records = ofStore (.ofRecords records) := by
  have clear : (FieldStore.ofRecords records).flags = List.replicate records.length false := by
    simp [FieldStore.ofRecords, FieldStore.flags, Function.comp_def, List.map_const']
  unfold new ofStore
  rw [FieldStore.records_ofRecords, clear]

/-- A flag is set where there is one, and the records are not touched. -/
theorem markUsed_ofStore (s : FieldStore) (index : Nat) :
    (ofStore s).markUsed index = ofStore (s.use index) := by
  unfold markUsed ofStore
  rw [FieldStore.records_use, FieldStore.flags_use]

theorem clearFlags_ofStore (s : FieldStore) : (ofStore s).clearFlags = ofStore s.release := by
  unfold clearFlags ofStore
  rw [FieldStore.records_release]
  simp [FieldStore.release, FieldStore.flags, Function.comp_def]

theorem foldl_markUsed (s : FieldStore) (indices : List Nat) :
    indices.foldl markUsed (ofStore s) = ofStore (indices.foldl FieldStore.use s) :=
  List.foldl_hom ofStore fun s index => markUsed_ofStore s index

/-- The flags reach as far as the records, before a write and after it. -/
theorem put?_ofStore (s : FieldStore) (index : Nat) (record : Bytes) :
    (ofStore s).put? index record = some (ofStore (s.put index record)) := by
  unfold put? reaching ofStore
  by_cases inside : index < s.size
  · have records : index < s.records.length := by rwa [FieldStore.length_records]
    have flags : index < s.flags.length := by rwa [FieldStore.length_flags]
    rw [if_neg (Nat.not_le.2 records)]
    dsimp only
    rw [set?_of_lt flags, set?_of_lt records, FieldStore.records_put inside,
      FieldStore.put_of_lt inside, FieldStore.flags, FieldStore.flags, List.map_set]
    rfl
  · have records : s.records.length ≤ index := by rw [FieldStore.length_records]; omega
    have flags : s.flags.length ≤ index := by rw [FieldStore.length_flags]; omega
    have grown : s.put index record = ⟨s.slots ++
        List.replicate (index - s.slots.length) { record := Bytes.blank record.length } ++
          [FieldStore.written record]⟩ := if_neg inside
    rw [if_pos records]
    dsimp only
    rw [set?_resize flags, set?_resize records, FieldStore.length_records, FieldStore.length_flags,
      grown]
    simp only [FieldStore.records, FieldStore.flags, List.map_append, List.map_replicate,
      FieldStore.size]
    rfl

end Shelf

theorem put?_eq (s : FieldStore) (index : Nat) (record : Bytes) :
    put? s index record = some (s.put index record) := by
  unfold put?
  rw [Shelf.put?_ofStore]
  exact Shelf.store?_ofStore _

theorem putRecord?_eq (kind : FieldKind) {slot : Nat} (first : 1 ≤ slot) (record : Bytes)
    (b : BlockState) :
    putRecord? kind slot record b = some (Desk.putRecord kind slot record b) := by
  unfold putRecord? Desk.putRecord
  cases b.store kind with
  | none => rfl
  | some store =>
    dsimp only
    rw [bind_of_eq_some (sub?_of_le first), bind_of_eq_some (put?_eq store (slot - 1) record)]
    rfl

/-! ## Joins -/

/-- A pointer names no slot before the first. -/
theorem linkedSlot?_eq (b : BlockState) (linkage : Linkage) (offset : Nat) :
    linkedSlot? b linkage offset = some (b.linkedSlot? linkage offset) := by
  cases linkage with
  | type1 => rfl
  | type2 position =>
    unfold linkedSlot? BlockState.linkedSlot?
    cases b.pointer? offset with
    | none => rfl
    | some record =>
      dsimp only
      rw [Option.bind_some]
      cases named : pointedSlot? record position with
      | none => rfl
      | some slot =>
        dsimp only
        obtain ⟨-, -, -, first, -⟩ := pointedSlot?_eq_some_iff.1 named
        rw [sub?_of_le first]
        rfl

theorem linkedValue?_eq (b : BlockState) (kind : FieldKind) (linkage : Linkage) (store : FieldStore)
    (offset : Nat) : linkedValue? b kind linkage store offset =
      some (b.linkedValue? kind linkage store offset) := by
  unfold linkedValue? BlockState.linkedValue? BlockState.storedValue?
  rw [bind_of_eq_some (linkedSlot?_eq b linkage offset)]
  cases b.linkedSlot? linkage offset with
  | none => rfl
  | some index =>
    dsimp only
    cases store.record? index with
    | none => rfl
    | some record =>
      dsimp only
      rw [bind_of_eq_some (decodeField?_eq kind record)]
      split <;> rfl

theorem joinKind?_eq (b : BlockState) (kind : FieldKind) (linkage : Linkage) :
    joinKind? b kind linkage = some (b.joinKind kind linkage) := by
  unfold joinKind? BlockState.joinKind
  cases b.entries with
  | none => rfl
  | some entries =>
    cases b.store kind with
    | none => rfl
    | some store =>
      dsimp only
      rw [bind_of_eq_some (mapM_eq_some_map fun offset _ =>
          linkedValue?_eq b kind linkage store offset), Shelf.clearFlags_ofStore,
        Shelf.foldl_markUsed, bind_of_eq_some (Shelf.store?_ofStore _), List.filterMap_map,
        List.zipWith_map_right, List.zipIdx_eq_zip_range', ← List.range_eq_range', List.zip,
        List.map_zipWith]
      rfl

theorem join?_eq (table : Reference.Table) (b : BlockState) :
    join? table b = some (b.join table) := by
  unfold join? BlockState.join
  induction FieldKind.all generalizing b with
  | nil => rfl
  | cons kind rest ih =>
    rw [List.foldlM_cons, bind_of_eq_some (joinKind?_eq b kind _), ih]
    rfl

/-! ## Positions -/

/-- By induction on the blocks: a position that is looked for in a block is not before its start. -/
theorem locateFrom?_eq (blocks : List BlockState) (index : Nat) {start position : Nat}
    (reached : start ≤ position) : locateFrom? blocks index start position =
      some ((Session.locateIn blocks (position - start)).map fun (i, offset) =>
        (index + i, offset)) := by
  induction blocks generalizing index start with
  | nil => rfl
  | cons b rest ih =>
    unfold locateFrom? Session.locateIn
    by_cases inside : position < start + b.entryCount
    · rw [if_pos inside, if_pos (by omega), sub?_of_le reached]
      rfl
    · rw [if_neg inside, if_neg (by omega), ih (index + 1) (by omega), Nat.sub_add_eq,
        Option.map_map]
      refine congrArg some (congrArg (Option.map · _) (funext fun place => ?_))
      show (index + 1 + place.1, place.2) = (index + (place.1 + 1), place.2)
      rw [Nat.add_right_comm, Nat.add_assoc]

theorem locate?_eq (s : Session) (position : Nat) :
    locate? s position = some (s.locate? position) := by
  unfold locate? Session.locate?
  rw [locateFrom?_eq _ _ (Nat.zero_le _), Nat.sub_zero]
  simp

theorem block_of_locate? {s : Session} {position block offset : Nat}
    (h : s.locate? position = some (block, offset)) : ∃ b, s.blocks[block]? = some b := by
  obtain ⟨b, here, -⟩ := Session.locateIn_eq_some h
  exact ⟨b, here⟩

theorem entryAt?_eq (s : Session) (position : Nat) :
    entryAt? s position = some (s.entryAt? position) := by
  unfold entryAt? Session.entryAt?
  rw [bind_of_eq_some (locate?_eq s position)]
  cases found : s.locate? position with
  | none => rfl
  | some place =>
    obtain ⟨b, here⟩ := block_of_locate? found
    simp only [here]
    rfl

theorem entryReport?_eq (s : Session) (position : Nat) :
    entryReport? s position = some (s.entryReport? position) := by
  unfold entryReport? Session.entryReport?
  rw [bind_of_eq_some (locate?_eq s position), entryAt?_eq]
  cases s.locate? position with
  | none => rfl
  | some place =>
    cases s.entryAt? position <;> rfl

theorem listReport?_eq (s : Session) (nonEmpty : Bool) :
    listReport? s nonEmpty = some (s.listReport nonEmpty) := by
  unfold listReport? Session.listReport
  rw [bind_of_eq_some (mapM_eq_some_map fun position _ => entryReport?_eq s position),
    List.filterMap_map]
  rfl

theorem freeForEntry?_eq (s : Session) (kind : FieldKind) (position : Nat) :
    freeForEntry? s kind position = some (s.freeForEntry kind position) := by
  unfold freeForEntry? Session.freeForEntry
  rw [bind_of_eq_some (locate?_eq s position)]
  cases found : s.locate? position with
  | none => rfl
  | some place =>
    obtain ⟨b, here⟩ := block_of_locate? found
    simp only [here]
    rfl

end UsimPhonebook.Checked
