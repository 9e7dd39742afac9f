import UsimPhonebook.Session.Basic

/-! # Positions

A position counts the entries of all blocks, one block after the other. It leads to an offset in a
block if the entries of the blocks before it and the offset add up to it
(`Session.locateIn_eq_some_iff`). So each position below the number of entries leads somewhere
(`Session.isSome_locateIn_iff`), and no two lead to the same place (`Session.locateIn_injective`).

Where a position leads depends on nothing but the number of entries of each block
(`Session.locateIn_congr`). The entry there is the one at this position of the list of all entries
(`Session.getElem?_entries`).
-/

namespace UsimPhonebook.Session

variable {blocks : List BlockState} {position i offset : Nat} {b : BlockState}

/-! ## Where a position leads -/

theorem locateIn_eq_some_iff : locateIn blocks position = some (i, offset) ↔
    ∃ b, blocks[i]? = some b ∧ offset < b.entryCount ∧
      countIn (blocks.take i) + offset = position := by
  induction blocks generalizing position i with
  | nil => exact ⟨nofun, fun ⟨b, no, _⟩ => nomatch no⟩
  | cons first rest ih =>
    unfold locateIn
    by_cases inside : position < first.entryCount
    · rw [if_pos inside]
      constructor
      · intro h
        cases h
        exact ⟨first, rfl, inside, Nat.zero_add _⟩
      · rintro ⟨b, here, inside', sum⟩
        cases i with
        | zero =>
          have sum : 0 + offset = position := sum
          rw [← sum, Nat.zero_add]
        | succ i =>
          rw [List.take_succ_cons, countIn_cons] at sum
          omega
    · rw [if_neg inside, Option.map_eq_some_iff]
      constructor
      · rintro ⟨⟨i', offset'⟩, there, same⟩
        cases same
        obtain ⟨b, here, inside', sum⟩ := ih.1 there
        refine ⟨b, here, inside', ?_⟩
        rw [List.take_succ_cons, countIn_cons]
        omega
      · rintro ⟨b, here, inside', sum⟩
        cases i with
        | zero =>
          cases here
          have sum : 0 + offset = position := sum
          omega
        | succ i =>
          rw [List.take_succ_cons, countIn_cons] at sum
          exact ⟨(i, offset), ih.2 ⟨b, here, inside', by omega⟩, rfl⟩

theorem locateIn_eq_some (h : locateIn blocks position = some (i, offset)) :
    ∃ b, blocks[i]? = some b ∧ offset < b.entryCount := by
  obtain ⟨b, here, inside, -⟩ := locateIn_eq_some_iff.1 h
  exact ⟨b, here, inside⟩

/-- No two positions lead to the same entry. -/
theorem locateIn_injective {other : Nat} {place : Nat × Nat}
    (h : locateIn blocks position = some place) (h' : locateIn blocks other = some place) :
    position = other := by
  obtain ⟨-, -, -, sum⟩ := locateIn_eq_some_iff.1 h
  obtain ⟨-, -, -, sum'⟩ := locateIn_eq_some_iff.1 h'
  rw [← sum, ← sum']

theorem isSome_locateIn_iff : (locateIn blocks position).isSome ↔
    position < countIn blocks := by
  induction blocks generalizing position with
  | nil => exact ⟨nofun, fun no => absurd no (Nat.not_lt_zero _)⟩
  | cons first rest ih =>
    unfold locateIn
    rw [countIn_cons]
    by_cases inside : position < first.entryCount
    · rw [if_pos inside]
      exact ⟨fun _ => by omega, fun _ => rfl⟩
    · rw [if_neg inside, Option.isSome_map, ih]
      omega

theorem locateIn_congr {blocks' : List BlockState}
    (counts : blocks'.map BlockState.entryCount = blocks.map BlockState.entryCount)
    (position : Nat) : locateIn blocks' position = locateIn blocks position := by
  induction blocks' generalizing blocks position with
  | nil =>
    cases List.map_eq_nil_iff.1 counts.symm
    rfl
  | cons first' rest' ih =>
    obtain ⟨first, rest, rfl, same, others⟩ := List.map_eq_cons_iff.1 counts.symm
    unfold locateIn
    rw [same, ih others.symm]

theorem locateIn_set (here : blocks[i]? = some b) {b' : BlockState}
    (count : b'.entryCount = b.entryCount) (position : Nat) :
    locateIn (blocks.set i b') position = locateIn blocks position := by
  obtain ⟨inside, rfl⟩ := List.getElem?_eq_some_iff.1 here
  refine locateIn_congr ?_ position
  rw [List.map_set, count, ← List.getElem_map BlockState.entryCount, List.set_getElem_self]
  rwa [List.length_map]

/-! ## The entry at a position -/

theorem length_getD_entries (b : BlockState) : (b.entries.getD []).length = b.entryCount := by
  unfold BlockState.entryCount
  cases b.entries <;> rfl

theorem getElem?_getD_entries (b : BlockState) (offset : Nat) :
    (b.entries.getD [])[offset]? = b.entryAt? offset := by
  unfold BlockState.entryAt?
  cases b.entries <;> rfl

theorem getElem?_entries (s : Session) (position : Nat) :
    s.entries[position]? = s.entryAt? position := by
  unfold entries entryAt? locate?
  induction s.blocks generalizing position with
  | nil => rfl
  | cons first rest ih =>
    have length := length_getD_entries first
    unfold locateIn
    rw [List.flatMap_cons, List.getElem?_append, length]
    by_cases inside : position < first.entryCount
    · rw [if_pos inside, if_pos inside, getElem?_getD_entries]
      rfl
    · rw [if_neg inside, if_neg inside, ih]
      cases locateIn rest (position - first.entryCount) <;> rfl

/-- To change an entry of a block is to change the entry at its global position. -/
theorem flatMap_set_of_locateIn {b' : BlockState} {f : Entry → Entry}
    (located : locateIn blocks position = some (i, offset)) (here : blocks[i]? = some b)
    (changed : b'.entries = b.entries.map (·.modify offset f)) :
    (blocks.set i b').flatMap (fun b => b.entries.getD []) =
      (blocks.flatMap fun b => b.entries.getD []).modify position f := by
  induction blocks generalizing position i with
  | nil => cases here
  | cons first rest ih =>
    have length := length_getD_entries first
    unfold locateIn at located
    split at located
    · next inside =>
      cases located
      cases here
      have modified : b'.entries.getD [] = (b.entries.getD []).modify offset f := by
        rw [changed]
        cases b.entries with
        | none => exact (List.modify_nil ..).symm
        | some es => rfl
      rw [List.set_cons_zero, List.flatMap_cons, List.flatMap_cons, modified]
      apply List.ext_getElem?
      intro j
      rw [List.getElem?_modify, List.getElem?_append, List.getElem?_append, List.length_modify,
        List.getElem?_modify]
      split
      · rfl
      · next beyond =>
        have apart : offset ≠ j := by omega
        simp only [if_neg apart, id_map']
    · next beyond =>
      obtain ⟨⟨i', offset'⟩, there, same⟩ := Option.map_eq_some_iff.1 located
      cases same
      have split : position =
          (first.entries.getD []).length + (position - first.entryCount) := by omega
      rw [List.set_cons_succ, List.flatMap_cons, List.flatMap_cons, ih there here]
      conv => rhs; rw [split]
      exact (List.modifyTailIdx_add ..).symm

end UsimPhonebook.Session
