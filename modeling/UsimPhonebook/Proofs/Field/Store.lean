import UsimPhonebook.Field.Store

/-! # Slots of a field store

A store is its records and its flags, slot by slot (`FieldStore.ext_slots`). Writing a slot of the
store changes that slot alone (`FieldStore.records_put`, `FieldStore.slot?_put_of_ne`), and the
first slot that is not in use is one (`FieldStore.free_of_firstFree?`).

The free slots below a limit come in order (`FieldStore.freeBelow`): the first of them is the first
free slot (`FieldStore.firstFree?_of_freeBelow`), and to put a value there leaves the others
(`FieldStore.freeBelow_put`).
-/

namespace UsimPhonebook.FieldStore

theorem record?_eq (s : FieldStore) (index : Nat) : s.record? index = s.records[index]? := by
  simp [record?, records]

theorem size_eq (s : FieldStore) : s.size = s.records.length := (length_records s).symm

@[simp] theorem records_use (s : FieldStore) (index : Nat) : (s.use index).records = s.records := by
  unfold records use
  apply List.ext_getElem?
  intro i
  rw [List.getElem?_map, List.getElem?_map, List.getElem?_modify]
  cases s.slots[i]? with
  | none => rfl
  | some slot =>
    show some (if index = i then ({ slot with used := true } : FieldSlot) else slot).record = _
    split <;> rfl

theorem flags_use (s : FieldStore) (index : Nat) :
    (s.use index).flags = s.flags.set index true := by
  unfold flags use
  apply List.ext_getElem?
  intro i
  rw [List.getElem?_map, List.getElem?_modify, List.getElem?_set', List.getElem?_map]
  cases s.slots[i]? with
  | none => simp
  | some slot =>
    by_cases same : index = i
    · subst same
      simp
    · simp [same]

/-- Marking slots changes no record, and puts those of the list in use. -/
theorem slot?_foldl_use (indices : List Nat) (s : FieldStore) (i : Nat) :
    (indices.foldl use s).slots[i]? =
      s.slots[i]?.map fun slot => { slot with used := slot.used || decide (i ∈ indices) } := by
  induction indices generalizing s with
  | nil => simp
  | cons index rest ih =>
    rw [List.foldl_cons, ih (s.use index)]
    show ((s.slots.modify index _)[i]?).map _ = _
    rw [List.getElem?_modify]
    cases s.slots[i]? with
    | none => rfl
    | some slot =>
      by_cases same : index = i
      · subst same
        simp
      · simp [same, Ne.symm same]

theorem records_foldl_use (indices : List Nat) (s : FieldStore) :
    (indices.foldl use s).records = s.records := by
  induction indices generalizing s with
  | nil => rfl
  | cons index rest ih => rw [List.foldl_cons, ih, records_use]

/-- When all slots are set free and some are marked, exactly these are in use. -/
theorem used_foldl_release {indices : List Nat} {s : FieldStore} {i : Nat} {slot : FieldSlot}
    (h : (indices.foldl use s.release).slots[i]? = some slot) : slot.used = true ↔ i ∈ indices := by
  rw [slot?_foldl_use] at h
  obtain ⟨free, here, rfl⟩ := Option.map_eq_some_iff.1 h
  have free : free.used = false := by
    unfold release at here
    rw [List.getElem?_map] at here
    obtain ⟨old, -, rfl⟩ := Option.map_eq_some_iff.1 here
    rfl
  simp [free]

theorem put_of_lt {s : FieldStore} {index : Nat} (h : index < s.size) (record : Bytes) :
    s.put index record = ⟨s.slots.set index (written record)⟩ := if_pos h

theorem size_put {s : FieldStore} {index : Nat} (h : index < s.size) (record : Bytes) :
    (s.put index record).size = s.size := by
  rw [put_of_lt h]
  exact List.length_set

theorem records_put {s : FieldStore} {index : Nat} (h : index < s.size) (record : Bytes) :
    (s.put index record).records = s.records.set index record := by
  rw [put_of_lt h]
  unfold records
  rw [List.map_set]
  rfl

theorem slot?_put_of_ne {s : FieldStore} {index other : Nat} (h : index < s.size)
    (ne : other ≠ index) (record : Bytes) :
    (s.put index record).slots[other]? = s.slots[other]? := by
  rw [put_of_lt h]
  exact List.getElem?_set_ne (Ne.symm ne)

/-- The slots of a store in which one was written: that one, those that were there, and the blank
ones up to it. -/
theorem slot_put_cases {s : FieldStore} {index i : Nat} {record : Bytes} {slot : FieldSlot}
    (h : (s.put index record).slots[i]? = some slot) :
    i = index ∧ slot = written record ∨ i ≠ index ∧ s.slots[i]? = some slot ∨
      i ≠ index ∧ s.slots[i]? = none ∧ slot = { record := Bytes.blank record.length } := by
  by_cases same : i = index
  · subst same
    rw [slot?_put] at h
    exact .inl ⟨rfl, (Option.some.inj h).symm⟩
  · right
    by_cases inside : index < s.slots.length
    · rw [slot?_put_of_ne inside same] at h
      exact .inl ⟨same, h⟩
    · rw [put, if_neg inside, List.append_assoc] at h
      by_cases old : i < s.slots.length
      · rw [List.getElem?_append_left old] at h
        exact .inl ⟨same, h⟩
      · rw [List.getElem?_append_right (by omega)] at h
        by_cases filled : i - s.slots.length < index - s.slots.length
        · rw [List.getElem?_append_left (by simpa using filled),
            List.getElem?_replicate_of_lt filled] at h
          exact .inr ⟨same, List.getElem?_eq_none (by omega), (Option.some.inj h).symm⟩
        · rw [List.getElem?_eq_none (by simp; omega)] at h
          cases h

theorem freeCount_eq (s : FieldStore) : s.freeCount = s.flags.count false := by
  unfold freeCount flags
  rw [List.count, List.countP_map]
  congr 1
  funext slot
  show (!slot.used) = (slot.used == false)
  cases slot.used <;> rfl

theorem freeCount_add_countP_used (s : FieldStore) :
    s.freeCount + s.slots.countP (·.used) = s.size := by
  have split := List.length_eq_countP_add_countP (fun slot : FieldSlot => slot.used) (l := s.slots)
  have free : s.freeCount = s.slots.countP fun slot => decide ¬slot.used = true := by
    unfold freeCount
    congr 1
    funext slot
    cases slot.used <;> rfl
  rw [free, Nat.add_comm]
  exact split.symm

theorem flag?_eq (s : FieldStore) (index : Nat) :
    s.flags[index]? = s.slots[index]?.map (·.used) := List.getElem?_map

theorem flag?_eq_some_true_iff {s : FieldStore} {index : Nat} :
    s.flags[index]? = some true ↔ ∃ slot, s.slots[index]? = some slot ∧ slot.used = true := by
  rw [flag?_eq, Option.map_eq_some_iff]

theorem record?_eq_some_iff {s : FieldStore} {index : Nat} {record : Bytes} :
    s.records[index]? = some record ↔ ∃ slot, s.slots[index]? = some slot ∧
      slot.record = record := by
  rw [← record?_eq, record?, Option.map_eq_some_iff]

theorem free_of_firstFree? {s : FieldStore} {index : Nat} (h : s.firstFree? = some index) :
    ∃ slot, s.slots[index]? = some slot ∧ slot.used = false := by
  obtain ⟨inside, free, -⟩ := List.findIdx?_eq_some_iff_getElem.1 h
  exact ⟨s.slots[index], List.getElem?_eq_getElem inside, by simpa using free⟩

/-- Two stores with the same records whose slots are in use for the same reason are one. -/
theorem ext_slots {s s' : FieldStore} {used : Nat → Prop} (records : s.records = s'.records)
    (h : ∀ i slot, s.slots[i]? = some slot → (slot.used = true ↔ used i))
    (h' : ∀ i slot, s'.slots[i]? = some slot → (slot.used = true ↔ used i)) : s = s' := by
  have length : s.slots.length = s'.slots.length := by
    have sizes := congrArg List.length records
    rwa [length_records, length_records] at sizes
  have same : s.slots = s'.slots := by
    apply List.ext_getElem length
    intro i inside inside'
    have there := List.getElem?_eq_getElem inside
    have there' := List.getElem?_eq_getElem inside'
    have record : s.slots[i].record = s'.slots[i].record := by
      have here := congrArg (·[i]?) records
      unfold FieldStore.records at here
      simp only [List.getElem?_map, there, there', Option.map_some, Option.some.injEq] at here
      exact here
    have flag : s.slots[i].used = s'.slots[i].used := by
      rw [Bool.eq_iff_iff, h i _ there, h' i _ there']
    show (⟨s.slots[i].record, s.slots[i].used⟩ : FieldSlot) = _
    rw [record, flag]
  cases s
  cases s'
  exact congrArg FieldStore.mk same

/-! ## Free slots in order -/

/-- The slots below a limit that are not in use, in ascending order. -/
def freeBelow (s : FieldStore) (limit : Nat) : List Nat :=
  (List.range limit).filter fun index => s.flags[index]? == some false

theorem mem_freeBelow {s : FieldStore} {limit index : Nat} :
    index ∈ s.freeBelow limit ↔ index < limit ∧ s.flags[index]? = some false := by
  unfold freeBelow
  rw [List.mem_filter, List.mem_range, beq_iff_eq]

theorem pairwise_freeBelow (s : FieldStore) (limit : Nat) :
    (s.freeBelow limit).Pairwise (· < ·) := List.pairwise_lt_range.filter _

theorem length_freeBelow (s : FieldStore) (limit : Nat) :
    (s.freeBelow limit).length = (s.flags.take limit).count false := by
  unfold freeBelow
  induction limit with
  | zero => rfl
  | succ limit ih =>
    rw [List.range_succ, List.filter_append, List.length_append, ih, List.take_add_one,
      List.count_append]
    congr 1
    cases here : s.flags[limit]? with
    | none => simp [here]
    | some used => cases used <;> simp [here]

theorem firstFree?_of_freeBelow {s : FieldStore} {limit index : Nat} {rest : List Nat}
    (h : s.freeBelow limit = index :: rest) : s.firstFree? = some index ∧ index < limit := by
  have sorted := s.pairwise_freeBelow limit
  obtain ⟨small, free⟩ := mem_freeBelow.1 (h ▸ List.mem_cons_self : index ∈ s.freeBelow limit)
  rw [flag?_eq] at free
  obtain ⟨slot, here, unused⟩ := Option.map_eq_some_iff.1 free
  obtain ⟨inside, rfl⟩ := List.getElem?_eq_some_iff.1 here
  refine ⟨List.findIdx?_eq_some_iff_getElem.2 ⟨inside, by simp [unused], fun j before free => ?_⟩,
    small⟩
  -- a free slot before it would be in the list, and come first
  have there : j ∈ s.freeBelow limit := by
    rw [mem_freeBelow, flag?_eq, List.getElem?_eq_getElem (by omega)]
    exact ⟨by omega, by simpa using free⟩
  rw [h] at there sorted
  rcases List.mem_cons.1 there with same | later
  · omega
  · have after := List.rel_of_pairwise_cons sorted later
    omega

/-- If there are none, then the first free slot is not below the limit. -/
theorem le_of_freeBelow_eq_nil {s : FieldStore} {limit index : Nat} (h : s.freeBelow limit = [])
    (first : s.firstFree? = some index) : limit ≤ index := by
  obtain ⟨slot, here, unused⟩ := free_of_firstFree? first
  refine Nat.le_of_not_lt fun small => ?_
  have there : index ∈ s.freeBelow limit := by
    rw [mem_freeBelow, flag?_eq, here, Option.map_some, unused]
    exact ⟨small, rfl⟩
  rw [h] at there
  cases there

/-- A value that is put into the first of them leaves the others. -/
theorem freeBelow_put {s : FieldStore} {limit index : Nat} {rest : List Nat} {record : Bytes}
    (h : s.freeBelow limit = index :: rest) (written : Bytes.isBlank record = false) :
    (s.put index record).freeBelow limit = rest := by
  have sorted := s.pairwise_freeBelow limit
  obtain ⟨-, free⟩ := mem_freeBelow.1 (h ▸ List.mem_cons_self : index ∈ s.freeBelow limit)
  have inside : index < s.size := by
    rw [← length_flags]
    exact (List.getElem?_eq_some_iff.1 free).1
  have flags (j : Nat) : ((s.put index record).flags[j]? == some false) =
      (j != index && s.flags[j]? == some false) := by
    rw [flag?_eq]
    by_cases same : j = index
    · subst same
      rw [slot?_put]
      simp [FieldStore.written, written]
    · rw [slot?_put_of_ne inside same, ← flag?_eq]
      simp [same]
  have others : (s.put index record).freeBelow limit = (index :: rest).filter (· != index) := by
    rw [← h]
    unfold freeBelow
    rw [List.filter_filter]
    simp only [flags]
  rw [h] at sorted
  rw [others, List.filter_cons_of_neg (by simp), List.filter_eq_self]
  intro j later
  have after := List.rel_of_pairwise_cons sorted later
  simp only [bne_iff_ne, ne_eq]
  omega

theorem freeBelow_eq_nil_of_freeCount {s : FieldStore} (none : s.freeCount = 0) (limit : Nat) :
    s.freeBelow limit = [] := by
  rw [← List.length_eq_zero_iff, length_freeBelow, ← Nat.le_zero]
  rw [freeCount_eq] at none
  exact none ▸ (List.take_sublist limit s.flags).count_le false

end UsimPhonebook.FieldStore
