import UsimPhonebook.Proofs.Session.Invariant

/-! # A load, block by block

A load comes to one block after the other (`Session.turn`). At its turn a block is still as it was
when the table was read, and afterwards it stays as its turn has left it. So what a first load makes
of a block is what loading this block alone makes of it, at the desk at which its turn comes
(`Session.blocks_load`).
-/

namespace UsimPhonebook.Session

/-- The session when a load comes to block `i`. -/
def turn (s : Session) (i : Nat) : Session :=
  ((loadBlocks (List.range i)).perform (loadTable.perform s).2).2

/-- The desk at which block `i` is read by a first load. -/
def deskAt (s : Session) (i : Nat) : Desk := ⟨(s.turn i).channel, {}⟩

/-- The session holds the table, which is not empty. -/
structure Tabled (s : Session) (table : Reference.Table) : Prop where
  absent : s.absent = false
  table : s.table = some table

variable {s : Session} {table : Reference.Table} {refs : Reference.Block}

theorem continues_turn (s : Session) (i : Nat) : s.Continues (s.turn i) := by
  obtain ⟨outcome, s₁, done, continues, -⟩ := loadTable_cases s
  unfold turn
  rw [done]
  exact continues.trans (continues_loadBlocks s₁ _)

theorem Tabled.perform_loadTable (h : s.Tabled table) : loadTable.perform s = (.ok table, s) := by
  rw [Session.perform_loadTable, h.absent, h.table]
  rfl

theorem Tabled.perform_loadBlock (h : s.Tabled table) (i : Nat) :
    (loadBlock i).perform s = visitBlock table i s := by
  rw [Session.perform_loadBlock, h.perform_loadTable]

theorem visitBlock_of_held {i : Nat} {b : BlockState} (here : s.blocks[i]? = some b)
    (held : b.entries.isSome) : visitBlock table i s = (.ok (), s) := by
  unfold visitBlock
  rw [here]
  exact if_pos held

theorem visitBlock_of_unread {i : Nat} {b : BlockState} (here : s.blocks[i]? = some b)
    (unread : b.entries = none) (named : table.block? i = some refs) : visitBlock table i s =
      let work := (Desk.load refs table s.options.sharePointers).perform ⟨s.channel, b⟩
      (work.1, s.withDesk i work.2) := by
  unfold visitBlock
  rw [here, named]
  exact if_neg (by rw [unread]; nofun)

/-- Loading a block changes what is held of this block, and nothing else. -/
theorem visitBlock_frame (table : Reference.Table) (i : Nat) (s : Session) :
    (visitBlock table i s).2.table = s.table ∧ (visitBlock table i s).2.absent = s.absent ∧
      (visitBlock table i s).2.options = s.options ∧
      ∀ j, j ≠ i → (visitBlock table i s).2.blocks[j]? = s.blocks[j]? := by
  unfold visitBlock
  split
  · exact ⟨rfl, rfl, rfl, fun _ _ => rfl⟩
  · split
    · exact ⟨rfl, rfl, rfl, fun _ _ => rfl⟩
    · split
      · exact ⟨rfl, rfl, rfl, fun _ _ => rfl⟩
      · exact ⟨rfl, rfl, rfl, fun j ne => List.getElem?_set_ne (Ne.symm ne)⟩

theorem Tabled.visitBlock (h : s.Tabled table) (i : Nat) :
    (visitBlock table i s).2.Tabled table where
  absent := (visitBlock_frame table i s).2.1.trans h.absent
  table := (visitBlock_frame table i s).1.trans h.table

theorem perform_loadBlocks_append (first second : List Nat) (s : Session) :
    (loadBlocks (first ++ second)).perform s =
      (loadBlocks second).perform ((loadBlocks first).perform s).2 := by
  induction first generalizing s with
  | nil => rfl
  | cons i rest ih => rw [List.cons_append, perform_loadBlocks_cons, perform_loadBlocks_cons, ih]

/-! ## Turns -/

section

variable (start : (loadTable.perform s).2.Tabled table)

include start

theorem tabled_turn (i : Nat) : (s.turn i).Tabled table := by
  unfold turn
  generalize (loadTable.perform s).2 = s at start ⊢
  induction List.range i generalizing s with
  | nil => exact start
  | cons j rest ih =>
    rw [perform_loadBlocks_cons, start.perform_loadBlock]
    exact ih _ (start.visitBlock j)

theorem turn_succ (i : Nat) : s.turn (i + 1) = (visitBlock table i (s.turn i)).2 := by
  rw [← (tabled_turn start i).perform_loadBlock]
  unfold turn
  rw [List.range_succ, perform_loadBlocks_append]
  rfl

theorem continues_turns {i n : Nat} (later : i ≤ n) : (s.turn i).Continues (s.turn n) := by
  induction n with
  | zero =>
    cases Nat.le_zero.1 later
    exact .refl _
  | succ n ih =>
    by_cases last : i = n + 1
    · rw [last]
      exact .refl _
    · rw [turn_succ start]
      exact (ih (by omega)).trans (continues_visitBlock (tabled_turn start n).table)

/-- Up to its turn a block is as it was. -/
theorem blocks_turn_of_le {i n : Nat} (early : n ≤ i) :
    (s.turn n).blocks[i]? = (loadTable.perform s).2.blocks[i]? := by
  induction n with
  | zero => rfl
  | succ n ih =>
    rw [turn_succ start, (visitBlock_frame table n _).2.2.2 i (by omega), ih (by omega)]

/-- After its turn a block stays as it is. -/
theorem blocks_turn_of_lt {i n : Nat} (late : i < n) :
    (s.turn n).blocks[i]? = (s.turn (i + 1)).blocks[i]? := by
  induction n with
  | zero => omega
  | succ n ih =>
    by_cases last : i = n
    · rw [last]
    · rw [turn_succ start, (visitBlock_frame table n _).2.2.2 i last, ih (by omega)]

end

/-! ## The whole load -/

section

variable (ok : (loadTable.perform s).1 = .ok table)

include ok

theorem tabled_loadTable : (loadTable.perform s).2.Tabled table := by
  rw [perform_loadTable] at ok ⊢
  cases absent : s.absent with
  | true =>
    rw [absent] at ok
    cases ok
  | false =>
    rw [absent] at ok
    cases held : s.table with
    | some table' =>
      rw [held] at ok
      cases ok
      exact ⟨absent, held⟩
    | none =>
      rw [held] at ok
      have ok : (readTable.perform s).1 = .ok table := ok
      show (readTable.perform s).2.Tabled table
      unfold readTable at ok ⊢
      rw [Action.perform_of] at ok ⊢
      rcases asked : s.channel.ask (.readAll s.options.referenceFile) with ⟨_ | _ | _, channel⟩
      all_goals
        rw [asked] at ok
        cases ok
      exact ⟨absent, rfl⟩

theorem perform_load_of_table : load.perform s =
    (.ok (s.turn table.blocks.length).entries, s.turn table.blocks.length) := by
  rw [perform_load]
  unfold turn
  rcases done : loadTable.perform s with ⟨outcome, s₁⟩
  rw [done] at ok
  cases ok
  rfl

end

theorem perform_load_of_error {e : Error} (failed : (loadTable.perform s).1 = .error e) :
    load.perform s = (.error e, (loadTable.perform s).2) := by
  rw [perform_load]
  rcases done : loadTable.perform s with ⟨outcome, s₁⟩
  rw [done] at failed
  cases failed
  rfl

theorem table_of_load {es : List Entry} (ok : (load.perform s).1 = .ok es) :
    ∃ table, (loadTable.perform s).1 = .ok table := by
  cases outcome : (loadTable.perform s).1 with
  | error e =>
    rw [perform_load_of_error outcome] at ok
    cases ok
  | ok table => exact ⟨table, rfl⟩

/-! ## A first load -/

theorem perform_loadTable_start (card : Card) (options : Options) :
    loadTable.perform (start card options) = readTable.perform (start card options) := by
  rw [perform_loadTable]
  rfl

theorem unread_start {card : Card} {options : Options}
    (ok : (loadTable.perform (start card options)).1 = .ok table) {i : Nat}
    (inside : i < table.blocks.length) :
    (loadTable.perform (start card options)).2.blocks[i]? = some {} := by
  rw [perform_loadTable_start] at ok ⊢
  unfold readTable at ok ⊢
  rw [Action.perform_of] at ok ⊢
  rcases asked : (start card options).channel.ask
    (.readAll (start card options).options.referenceFile) with ⟨_ | _ | _, channel⟩
  all_goals
    rw [asked] at ok
    cases ok
  unfold keepTable
  rw [List.getElem?_map, List.getElem?_eq_getElem inside]
  rfl

theorem untabled_start {card : Card} {options : Options} {e : Error}
    (failed : (loadTable.perform (start card options)).1 = .error e) :
    (loadTable.perform (start card options)).2.table = none := by
  rw [perform_loadTable_start] at failed ⊢
  unfold readTable at failed ⊢
  rw [Action.perform_of] at failed ⊢
  rcases asked : (start card options).channel.ask
    (.readAll (start card options).options.referenceFile) with ⟨_ | _ | _, channel⟩
  all_goals rw [asked] at failed
  · rfl
  · rfl
  · cases failed

/-- If a table is held after a first load, it could be had. -/
theorem had_of_held {card : Card} {options : Options}
    (held : (load.perform (start card options)).2.table = some table) :
    (loadTable.perform (start card options)).1 = .ok table := by
  cases outcome : (loadTable.perform (start card options)).1 with
  | error e =>
    rw [perform_load_of_error outcome] at held
    cases (untabled_start outcome).symm.trans held
  | ok other =>
    rw [perform_load_of_table outcome] at held
    rw [← Option.some.inj ((tabled_turn (tabled_loadTable outcome) _).table.symm.trans held)]

section

variable {options : Options} {card : Card}
  (ok : (loadTable.perform (start card options)).1 = .ok table)

include ok

/-- What a load makes of a block that was not read before is what it makes of it at its turn. -/
theorem blocks_load {i : Nat} (named : table.block? i = some refs) :
    let s := start card options
    let work := (Desk.load refs table options.sharePointers).perform (s.deskAt i)
    (s.turn (i + 1)).card = work.2.card ∧ (load.perform s).2.blocks[i]? = some work.2.block := by
  intro s work
  have inside : i < table.blocks.length := (List.getElem?_eq_some_iff.1 named).1
  have tabled := tabled_loadTable ok
  have here : (s.turn i).blocks[i]? = some {} := by
    rw [blocks_turn_of_le tabled (Nat.le_refl i), unread_start ok inside]
  have visited : s.turn (i + 1) = (s.turn i).withDesk i work.2 := by
    have options_eq : (s.turn i).options = options := (continues_turn s i).options
    rw [turn_succ tabled, visitBlock_of_unread here rfl named, options_eq]
    rfl
  constructor
  · rw [visited]
    rfl
  · rw [perform_load_of_table ok]
    show (s.turn table.blocks.length).blocks[i]? = _
    rw [blocks_turn_of_lt tabled inside, visited]
    exact getElem?_withDesk_self here work.2

end

end UsimPhonebook.Session
