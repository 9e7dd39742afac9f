import UsimPhonebook.Proofs.Session.Rejoining

/-! # What a load reads

On a card without faults a load reads every block that can be read (`Session.Synced.loaded_load`),
whatever was read before. Then the card alone decides what the session holds
(`Session.Loaded.eq`).
-/

namespace UsimPhonebook.Session

/-- The session goes by the table on the card, no fault is pending, and every block agrees with its
files. -/
structure Synced (s : Session) : Prop where
  rooted : s.Rooted
  calm : s.card.faults = []
  agreed : s.Upholds Agreed

/-- And every block that can be read is loaded. -/
structure Loaded (s : Session) : Prop where
  synced : s.Synced
  table : ∀ table, Reference.Table.on? s.card.files s.options.referenceFile = some table →
    table.blocks ≠ [] → s.table = some table
  loaded : ∀ table i refs b, s.table = some table → table.block? i = some refs →
    s.blocks[i]? = some b → (refs.on s.card.files .adn).isSome → b.entries.isSome

variable {s : Session}

theorem synced_start {card : Card} (calm : card.faults = []) (options : Options) :
    (start card options).Synced where
  rooted := ⟨nofun, nofun, rfl⟩
  calm := calm
  agreed := by
    intro table i refs b held
    cases held

theorem Synced.continues (h : s.Synced) {s' : Session} (c : s.Continues s') : s'.Synced where
  rooted := c.rooted h.rooted
  calm := c.reads.faultless h.calm
  agreed := c.upholds _ _ loads_agreed h.calm h.agreed

/-! ## A load -/

theorem perform_loadTable_of_held (rooted : s.Rooted) {table : Reference.Table}
    (held : s.table = some table) : loadTable.perform s = (.ok table, s) := by
  obtain ⟨there, some⟩ := rooted.table table held
  rw [perform_loadTable]
  by_cases absent : s.absent = true
  · obtain ⟨table', there', none⟩ := rooted.absent absent
    rw [there] at there'
    cases there'
    exact absurd none some
  · rw [if_neg absent, held]

/-- The entries of block `i` are held. -/
def Held (s : Session) (i : Nat) : Prop := ∃ b, s.blocks[i]? = some b ∧ b.entries.isSome

/-- Loading a block holds it if its address records are there, and drops no other one. -/
theorem Synced.held_visitBlock (h : s.Synced) {table : Reference.Table}
    (held : s.table = some table) (i : Nat) :
    (∀ j, s.Held j → (visitBlock table i s).2.Held j) ∧
    ∀ refs b, table.block? i = some refs → s.blocks[i]? = some b →
      (refs.on s.card.files .adn).isSome → (visitBlock table i s).2.Held i := by
  unfold visitBlock
  cases here : s.blocks[i]? with
  | none => exact ⟨fun j => id, nofun⟩
  | some b =>
    dsimp only
    by_cases loaded : b.entries.isSome
    · rw [if_pos loaded]
      exact ⟨fun j => id, fun _ _ _ _ _ => ⟨b, here, loaded⟩⟩
    · rw [if_neg loaded]
      cases named : table.block? i with
      | none => exact ⟨fun j => id, nofun⟩
      | some refs =>
        have inside := (List.getElem?_eq_some_iff.1 here).1
        have others (d : Desk) (j : Nat) (other : s.Held j) : (s.withDesk i d).Held j := by
          obtain ⟨b', here', loaded'⟩ := other
          have ne : i ≠ j := by
            rintro rfl
            rw [here] at here'
            cases here'
            exact loaded loaded'
          exact ⟨b', (List.getElem?_set_ne ne).trans here', loaded'⟩
        refine ⟨others _, fun refs' b' named' here' there => ?_⟩
        cases named'
        have mirrors := (h.agreed table i refs b held named here).mirrors
        rcases Desk.load_cases (d := ⟨s.channel, b⟩) mirrors s.options.sharePointers with
          ⟨e, d', failed, block, -, missing⟩ | ⟨b₁, es, d', ok, block, -, -, loaded₁, -, -⟩
        · have missing : refs.on s.card.files .adn = none := missing h.calm
          rw [missing] at there
          cases there
        · obtain ⟨es', loaded', -⟩ := BlockState.strip_join loaded₁ table
          dsimp only
          rw [ok]
          refine ⟨d'.block, List.getElem?_set_self inside, ?_⟩
          rw [block, loaded']
          rfl

theorem Synced.held_loadBlocks (h : s.Synced) {table : Reference.Table}
    (held : s.table = some table) (blocks : List Nat) :
    let s' := ((loadBlocks blocks).perform s).2
    s'.table = some table ∧ (∀ j, s.Held j → s'.Held j) ∧
    ∀ i refs, i ∈ blocks → table.block? i = some refs →
      (refs.on s.card.files .adn).isSome → s'.Held i := by
  induction blocks generalizing s with
  | nil => exact ⟨held, fun _ => id, nofun⟩
  | cons i rest ih =>
    intro s'
    have first : ((loadBlock i).perform s).2 = (visitBlock table i s).2 := by
      rw [perform_loadBlock, perform_loadTable_of_held h.rooted held]
    have next : s' = ((loadBlocks rest).perform (visitBlock table i s).2).2 := by
      show ((loadBlocks (i :: rest)).perform s).2 = _
      rw [perform_loadBlocks_cons, first]
    have continues := continues_visitBlock (i := i) held
    have held₁ : (visitBlock table i s).2.table = some table := by
      unfold visitBlock
      split
      · exact held
      · split
        · exact held
        · split <;> exact held
    obtain ⟨keeps, gains⟩ := h.held_visitBlock held i
    obtain ⟨held', keeps', gains'⟩ := ih (h.continues continues) held₁
    rw [next]
    refine ⟨held', fun j there => keeps' j (keeps j there), fun j refs member named there => ?_⟩
    rcases List.mem_cons.1 member with rfl | member
    · have short : j < s.blocks.length := by
        rw [h.rooted.blocks, held]
        exact (List.getElem?_eq_some_iff.1 named).1
      exact keeps' j (gains refs _ named (List.getElem?_eq_getElem short) there)
    · refine gains' j refs member named ?_
      rw [continues.reads.files]
      exact there

theorem Synced.loaded_load (h : s.Synced) : (load.perform s).2.Loaded := by
  have synced : (load.perform s).2.Synced := h.continues (continues_load s)
  obtain ⟨outcome, s₁, done, continues, held, complete⟩ := loadTable_cases s
  have complete := complete h.rooted h.calm
  have synced₁ := h.continues continues
  cases outcome with
  | error e =>
    have same : (load.perform s).2 = s₁ := by rw [perform_load, done]
    rw [same] at synced ⊢
    have unread (table : Reference.Table)
        (there : Reference.Table.on? s₁.card.files s₁.options.referenceFile = some table) :
        table.blocks = [] := by
      rw [continues.reads.files, continues.options] at there
      exact Classical.byContradiction fun some => nomatch complete table there some
    refine ⟨synced, fun table there some => absurd (unread table there) some, ?_⟩
    intro table i refs b held
    obtain ⟨there, some⟩ := synced.rooted.table table held
    exact absurd (unread table there) some
  | ok table =>
    have same : (load.perform s).2 =
        ((loadBlocks (List.range table.blocks.length)).perform s₁).2 := by
      rw [perform_load, done]
    have reads := (continues_loadBlocks s₁ (List.range table.blocks.length)).reads
    obtain ⟨held', -, gains⟩ :=
      synced₁.held_loadBlocks (held table rfl) (List.range table.blocks.length)
    rw [same] at synced ⊢
    refine ⟨synced, fun table' there some => ?_, fun table' i refs b there named here adn => ?_⟩
    · have root := (synced.rooted.table table held').1
      rw [there] at root
      cases root
      exact held'
    · rw [held'] at there
      cases there
      rw [reads.files] at adn
      have short := (List.getElem?_eq_some_iff.1 named).1
      obtain ⟨b', here', loaded⟩ := gains i refs (List.mem_range.2 short) named adn
      rw [here] at here'
      cases here'
      exact loaded

/-! ## What is held after a load -/

/-- Two blocks that agree with the same files, and are loaded if they can be read, hold the same. -/
theorem Agreed.eq_of_loaded {table : Reference.Table} {refs : Reference.Block} {files : BlockFiles}
    {b b' : BlockState} (h : Agreed table refs files b) (h' : Agreed table refs files b')
    (loaded : (files .adn).isSome → b.entries.isSome)
    (loaded' : (files .adn).isSome → b'.entries.isSome) :
    b.entries = b'.entries ∧ ∀ kind, b.store kind = b'.store kind := by
  by_cases adn : (files .adn).isSome
  · exact h.eq h' (loaded adn) (loaded' adn)
  · have nothing {b : BlockState} (h : Agreed table refs files b) :
        b.entries = none ∧ ∀ kind, b.store kind = none := by
      refine ⟨?_, fun kind => ?_⟩
      · cases loaded : b.entries with
        | none => rfl
        | some es => exact absurd (h.mirrors.entries es loaded).1 adn
      · cases stored : b.store kind with
        | none => rfl
        | some store => exact absurd (h.mirrors.stored kind store stored).1 adn
    obtain ⟨unread, unstored⟩ := nothing h
    obtain ⟨unread', unstored'⟩ := nothing h'
    exact ⟨unread.trans unread'.symm, fun kind => (unstored kind).trans (unstored' kind).symm⟩

theorem Loaded.table_eq (h : s.Loaded) {s' : Session} (h' : s'.Loaded)
    (options : s'.options.referenceFile = s.options.referenceFile)
    (files : s'.card.files = s.card.files) : s'.table = s.table := by
  have of_held {a b : Session} (ha : a.Loaded) (hb : b.Loaded)
      (options : a.options.referenceFile = b.options.referenceFile)
      (files : a.card.files = b.card.files) {table : Reference.Table}
      (held : a.table = some table) : b.table = some table := by
    obtain ⟨there, some⟩ := ha.synced.rooted.table table held
    rw [options, files] at there
    exact hb.table table there some
  cases held : s.table with
  | some table => exact of_held h h' options.symm files.symm held
  | none =>
    cases held' : s'.table with
    | none => rfl
    | some table =>
      have := of_held h' h options files held'
      rw [held] at this
      cases this

/-- What a session holds of entries and of free slots after a load is decided by the card. -/
theorem Loaded.eq (h : s.Loaded) {s' : Session} (h' : s'.Loaded)
    (options : s'.options.referenceFile = s.options.referenceFile)
    (files : s'.card.files = s.card.files) :
    s.entries = s'.entries ∧
      ∀ kind block, s.freeInBlock kind block = s'.freeInBlock kind block := by
  have tables := h.table_eq h' options files
  have length : s.blocks.length = s'.blocks.length := by
    rw [h.synced.rooted.blocks, h'.synced.rooted.blocks, tables]
  have block (i : Nat) (b b' : BlockState) (here : s.blocks[i]? = some b)
      (here' : s'.blocks[i]? = some b') :
      b.entries = b'.entries ∧ ∀ kind, b.store kind = b'.store kind := by
    have inside := (List.getElem?_eq_some_iff.1 here).1
    have count := h.synced.rooted.blocks
    cases held : s.table with
    | none =>
      rw [count, held] at inside
      cases inside
    | some table =>
      rw [held] at tables
      rw [count, held] at inside
      obtain ⟨refs, named⟩ : ∃ refs, table.block? i = some refs :=
        ⟨_, List.getElem?_eq_getElem inside⟩
      have agreed := h.synced.agreed table i refs b held named here
      have agreed' := h'.synced.agreed table i refs b' tables named here'
      have loaded' := h'.loaded table i refs b' tables named here'
      rw [files] at agreed' loaded'
      exact agreed.eq_of_loaded agreed' (h.loaded table i refs b held named here) loaded'
  have same (i : Nat) : (∃ b b', s.blocks[i]? = some b ∧ s'.blocks[i]? = some b') ∨
      s.blocks[i]? = none ∧ s'.blocks[i]? = none := by
    by_cases inside : i < s.blocks.length
    · exact .inl ⟨_, _, List.getElem?_eq_getElem inside, List.getElem?_eq_getElem (length ▸ inside)⟩
    · exact .inr ⟨List.getElem?_eq_none (by omega), List.getElem?_eq_none (by omega)⟩
  constructor
  · have entries : s.blocks.map (·.entries) = s'.blocks.map (·.entries) := by
      apply List.ext_getElem?
      intro i
      rw [List.getElem?_map, List.getElem?_map]
      rcases same i with ⟨b, b', here, here'⟩ | ⟨none, none'⟩
      · rw [here, here', Option.map_some, Option.map_some, (block i b b' here here').1]
      · rw [none, none']
    show s.blocks.flatMap _ = s'.blocks.flatMap _
    rw [List.flatMap_def, List.flatMap_def]
    have map_eq (blocks : List BlockState) : blocks.map (fun b => b.entries.getD []) =
        (blocks.map (·.entries)).map (·.getD []) := by rw [List.map_map]; rfl
    rw [map_eq, map_eq, entries]
  · intro kind i
    unfold freeInBlock
    rcases same i with ⟨b, b', here, here'⟩ | ⟨none, none'⟩
    · rw [here, here', Option.bind_some, Option.bind_some, (block i b b' here here').2 kind]
    · rw [none, none']

end UsimPhonebook.Session
