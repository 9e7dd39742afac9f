import UsimPhonebook.Proofs.Session.Editing
import UsimPhonebook.Proofs.Session.Loading
import UsimPhonebook.Proofs.Session.Position
import UsimPhonebook.Session.Capacity
import UsimPhonebook.Session.Command

/-! # What commands keep

`Session.Upholds` says a property of every block of a session and of the files that the block has on
the card. Every command but an update only reads: it leaves the files as they are
(`Session.Continues`), keeps the session on the table of the card (`Session.Rooted`), and upholds
each property that loading a block upholds (`Session.Loads`). An update is refused at once, or it is
an edit of one block (`Session.update_cases`).

`Session.run_induction` carries a property along a run.
-/

namespace UsimPhonebook.Session

/-- A property of a block: of the table, of what the table says of the block, of the files of the
block, and of what is held of it. -/
abbrev BlockProperty := Reference.Table → Reference.Block → BlockFiles → BlockState → Prop

/-- Every block of the session has the property. -/
def Upholds (P : BlockProperty) (s : Session) : Prop :=
  ∀ table i refs b, s.table = some table → table.block? i = some refs → s.blocks[i]? = some b →
    P table refs (refs.on s.card.files) b

/-- The session goes by the table on the card. -/
structure Rooted (s : Session) : Prop where
  table : ∀ table, s.table = some table →
    Reference.Table.on? s.card.files s.options.referenceFile = some table ∧ table.blocks ≠ []
  absent : s.absent = true → ∃ table,
    Reference.Table.on? s.card.files s.options.referenceFile = some table ∧ table.blocks = []
  blocks : s.blocks.length = (s.table.map (·.blocks.length)).getD 0

/-- The property holds of a block of which nothing was read, and is kept by loading the block on
any card that fulfils `Q`, and by dropping its entries. -/
structure Loads (Q : Card → Prop) (P : BlockProperty) : Prop where
  keeps : ∀ a b : Card, a.Reads b → Q a → Q b
  empty : ∀ table refs files, P table refs files {}
  invalidate : ∀ table refs files b, P table refs files b → P table refs files b.invalidate
  load : ∀ table refs share (d : Desk), Q d.card → P table refs (refs.on d.card.files) d.block →
    P table refs (refs.on d.card.files) ((Desk.load refs table share).perform d).2.block

/-- Of each block of the table that is held there is a state, and of no other. -/
def Shaped (s : Session) : Prop := s.blocks.length = (s.table.map (·.blocks.length)).getD 0

/-- What a command that only reads makes of a session. -/
structure Continues (s s' : Session) : Prop where
  reads : s.card.Reads s'.card
  options : s'.options = s.options
  shaped : s.Shaped → s'.Shaped
  rooted : s.Rooted → s'.Rooted
  upholds : ∀ Q P, Loads Q P → Q s.card → s.Upholds P → s'.Upholds P

theorem Continues.refl (s : Session) : s.Continues s :=
  ⟨.refl _, rfl, id, id, fun _ _ _ _ => id⟩

theorem Continues.trans {a b c : Session} (h : a.Continues b) (h' : b.Continues c) :
    a.Continues c where
  reads := h.reads.trans h'.reads
  options := h'.options.trans h.options
  shaped shape := h'.shaped (h.shaped shape)
  rooted r := h'.rooted (h.rooted r)
  upholds Q P loads q u :=
    h'.upholds Q P loads (loads.keeps _ _ h.reads q) (h.upholds Q P loads q u)

/-! ## Reading the table -/

variable {s : Session}

theorem continues_of_reads {channel : Channel} (reads : s.card.Reads channel.card) :
    s.Continues { s with channel } where
  reads := reads
  options := rfl
  shaped := id
  rooted r :=
    { table := fun t h => by
        show Reference.Table.on? channel.card.files _ = _ ∧ _
        rw [reads.files]
        exact r.table t h
      absent := fun h => by
        show ∃ t, Reference.Table.on? channel.card.files _ = _ ∧ _
        rw [reads.files]
        exact r.absent h
      blocks := r.blocks }
  upholds Q P _ _ u := by
    intro table i refs b held named here
    show P table refs (refs.on channel.card.files) b
    rw [reads.files]
    exact u table i refs b held named here

theorem getElem?_blocks_keepTable {table : Reference.Table} {i : Nat} {b : BlockState}
    (h : (keepTable table s).blocks[i]? = some b) : b = {} := by
  unfold keepTable at h
  rw [List.getElem?_map] at h
  obtain ⟨-, -, rfl⟩ := Option.map_eq_some_iff.1 h
  rfl

theorem continues_keepTable {table : Reference.Table}
    (on : Reference.Table.on? s.card.files s.options.referenceFile = some table)
    (some : table.blocks ≠ []) : s.Continues (keepTable table s) where
  reads := .refl _
  options := rfl
  shaped _ := List.length_map ..
  rooted r :=
    { table := by
        intro other held
        cases held
        exact ⟨on, some⟩
      absent := fun absent => by
        obtain ⟨other, there, none⟩ := r.absent absent
        rw [on] at there
        cases there
        exact absurd none some
      blocks := List.length_map .. }
  upholds Q P loads _ _ := by
    intro table' i refs b _ _ here
    rw [getElem?_blocks_keepTable here]
    exact loads.empty table' refs _

theorem continues_absent {table : Reference.Table}
    (on : Reference.Table.on? s.card.files s.options.referenceFile = some table)
    (none : table.blocks = []) : s.Continues { s with absent := true } where
  reads := .refl _
  options := rfl
  shaped := id
  rooted r := ⟨r.table, fun _ => ⟨table, on, none⟩, r.blocks⟩
  upholds _ _ _ _ u := u

/-- Reading the table only reads; when it succeeds the table is held. -/
theorem readTable_cases (s : Session) :
    ∃ outcome s', readTable.perform s = (outcome, s') ∧ s.Continues s' ∧
      (∀ table, outcome = .ok table → s'.table = some table) ∧
      (s.card.faults = [] → (∀ table, Reference.Table.on? s.card.files s.options.referenceFile =
        some table → table.blocks ≠ [] → outcome = .ok table)) := by
  unfold readTable
  rw [Action.perform_of]
  rcases Desk.read_cases ⟨s.channel, {}⟩ (.readAll s.options.referenceFile) nofun with
    ⟨e, d', failed, -, reads, missing⟩ | ⟨file, records, d', ok, -, reads, found, granted⟩
  · have asked : s.channel.ask (.readAll s.options.referenceFile) = (.error e, d'.channel) :=
      Prod.ext (congrArg (·.1) failed) (congrArg (·.2.channel) failed)
    rw [asked]
    refine ⟨_, _, rfl, continues_of_reads reads, nofun, fun calm table there => ?_⟩
    unfold Reference.Table.on? at there
    rw [show s.card.files.find? s.options.referenceFile = none from missing calm] at there
    cases there
  · have reads : s.card.Reads d'.card := reads
    have asked : s.channel.ask (.readAll s.options.referenceFile) = (.ok records, d'.channel) :=
      Prod.ext (congrArg (·.1) ok) (congrArg (·.2.channel) ok)
    have on : Reference.Table.on? s.card.files s.options.referenceFile =
        some (.parse file.records) := by
      unfold Reference.Table.on?
      rw [show s.card.files.find? s.options.referenceFile = some file from found]
      rfl
    have on' : Reference.Table.on? d'.card.files s.options.referenceFile =
        some (.parse file.records) := by
      rw [reads.files, on]
    have first := continues_of_reads reads
    rw [asked]
    cases granted
    cases records : file.records with
    | nil =>
      rw [records] at on on'
      refine ⟨_, _, rfl, first.trans (continues_absent on' rfl), nofun,
        fun _ table there some => ?_⟩
      rw [on] at there
      cases there
      exact absurd rfl some
    | cons record rest =>
      rw [records] at on on'
      refine ⟨_, _, rfl, first.trans (continues_keepTable on' (by simp [Reference.Table.parse])),
        fun table h => ?_, fun _ table there _ => ?_⟩
      · cases h
        rfl
      · rw [on] at there
        cases there
        rfl

theorem loadTable_cases (s : Session) :
    ∃ outcome s', loadTable.perform s = (outcome, s') ∧ s.Continues s' ∧
      (∀ table, outcome = .ok table → s'.table = some table) ∧
      (s.Rooted → s.card.faults = [] → (∀ table,
        Reference.Table.on? s.card.files s.options.referenceFile = some table →
          table.blocks ≠ [] → outcome = .ok table)) := by
  rw [perform_loadTable]
  by_cases absent : s.absent = true
  · rw [if_pos absent]
    refine ⟨_, s, rfl, .refl s, nofun, fun r _ table there some => ?_⟩
    obtain ⟨table', there', none⟩ := r.absent absent
    rw [there] at there'
    cases there'
    exact absurd none some
  · rw [if_neg absent]
    cases held : s.table with
    | none =>
      obtain ⟨outcome, s', done, continues, ok, complete⟩ := readTable_cases s
      exact ⟨outcome, s', done, continues, ok, fun _ => complete⟩
    | some table =>
      refine ⟨_, s, rfl, .refl s, fun table' h => ?_, fun r _ table' there _ => ?_⟩
      · cases h
        exact held
      · rw [(r.table table held).1] at there
        cases there
        rfl

/-! ## Working on a block -/

/-- The session after work of a desk on block `i`. -/
def withDesk (s : Session) (i : Nat) (d : Desk) : Session :=
  { s with channel := d.channel, blocks := s.blocks.set i d.block }

@[simp] theorem card_withDesk (s : Session) (i : Nat) (d : Desk) : (s.withDesk i d).card = d.card :=
  rfl

@[simp] theorem table_withDesk (s : Session) (i : Nat) (d : Desk) :
    (s.withDesk i d).table = s.table := rfl

@[simp] theorem options_withDesk (s : Session) (i : Nat) (d : Desk) :
    (s.withDesk i d).options = s.options := rfl

/-- To give a block back as it was. -/
theorem withDesk_eq_self {i : Nat} {b : BlockState} (here : s.blocks[i]? = some b) :
    s.withDesk i ⟨s.channel, b⟩ = s := by
  obtain ⟨inside, rfl⟩ := List.getElem?_eq_some_iff.1 here
  unfold withDesk
  rw [List.set_getElem_self]

theorem getElem?_withDesk_self {i : Nat} {b : BlockState} (here : s.blocks[i]? = some b)
    (d : Desk) : (s.withDesk i d).blocks[i]? = some d.block :=
  List.getElem?_set_self (List.getElem?_eq_some_iff.1 here).1

theorem perform_atBlock {α : Type} {i : Nat} {b : BlockState} (here : s.blocks[i]? = some b)
    (work : Action Desk α) : (atBlock i work).perform s =
      ((work.perform ⟨s.channel, b⟩).1, s.withDesk i (work.perform ⟨s.channel, b⟩).2) := by
  unfold atBlock
  rw [Action.perform_of, here]
  rfl

/-- Work that leaves the reference file alone keeps the session on its table. -/
theorem Rooted.withDesk (r : s.Rooted) {i : Nat} {d : Desk}
    (same : Reference.Table.on? d.card.files s.options.referenceFile =
      Reference.Table.on? s.card.files s.options.referenceFile) : (s.withDesk i d).Rooted where
  table := by
    rw [card_withDesk, options_withDesk, same]
    exact r.table
  absent := by
    rw [card_withDesk, options_withDesk, same]
    exact r.absent
  blocks := by
    rw [table_withDesk, ← r.blocks]
    exact List.length_set

theorem Shaped.withDesk (shape : s.Shaped) (i : Nat) (d : Desk) : (s.withDesk i d).Shaped :=
  (List.length_set ..).trans shape

theorem Shaped.named (shape : s.Shaped) {i : Nat} {b : BlockState} (here : s.blocks[i]? = some b) :
    ∃ table refs, s.table = some table ∧ table.block? i = some refs := by
  obtain ⟨inside, -⟩ := List.getElem?_eq_some_iff.1 here
  rw [shape] at inside
  cases held : s.table with
  | none =>
    rw [held] at inside
    cases inside
  | some table =>
    rw [held] at inside
    exact ⟨table, _, rfl, List.getElem?_eq_getElem inside⟩

theorem Shaped.block (shape : s.Shaped) {table : Reference.Table} (held : s.table = some table)
    {i : Nat} {refs : Reference.Block} (named : table.block? i = some refs) :
    ∃ b, s.blocks[i]? = some b := by
  refine ⟨_, List.getElem?_eq_getElem ?_⟩
  rw [shape, held]
  exact (List.getElem?_eq_some_iff.1 named).1

/-- The property is upheld by work on one block if that block has it afterwards and the other
blocks do not see the difference. -/
theorem Upholds.withDesk {P : BlockProperty} {i : Nat} {d : Desk} {table : Reference.Table}
    {refs : Reference.Block} (held : s.table = some table) (named : table.block? i = some refs)
    (others : ∀ j refs b, table.block? j = some refs → s.blocks[j]? = some b → j ≠ i →
      P table refs (refs.on d.card.files) b)
    (self : P table refs (refs.on d.card.files) d.block) : (s.withDesk i d).Upholds P := by
  intro table' j refs' b held' named' here
  have held' : s.table = some table' := held'
  have here : (s.blocks.set i d.block)[j]? = some b := here
  rw [held] at held'
  cases held'
  by_cases same : j = i
  · subst same
    have inside : j < s.blocks.length := by
      rw [← List.length_set]
      exact (List.getElem?_eq_some_iff.1 here).1
    rw [List.getElem?_set_self inside] at here
    rw [named] at named'
    cases named'
    cases here
    exact self
  · rw [List.getElem?_set_ne (Ne.symm same)] at here
    exact others j refs' b named' here same

/-! ## Loading -/

/-- Loading a block when the table is held. -/
def visitBlock (table : Reference.Table) (i : Nat) (s : Session) : Except Error Unit × Session :=
  match s.blocks[i]? with
  | none => (.error (.noSuchBlock i), s)
  | some b =>
    if b.entries.isSome then (.ok (), s)
    else
      match table.block? i with
      | none => (.error (.noSuchBlock i), s)
      | some refs =>
        let work := (Desk.load refs table s.options.sharePointers).perform ⟨s.channel, b⟩
        (work.1, s.withDesk i work.2)

theorem perform_loadBlock (i : Nat) (s : Session) : (loadBlock i).perform s =
    match loadTable.perform s with
    | (.error e, s) => (.error e, s)
    | (.ok table, s) => visitBlock table i s := by
  unfold loadBlock
  rw [Action.perform_bind]
  rcases loadTable.perform s with ⟨e | table, s'⟩
  · rfl
  · dsimp only
    rw [Action.perform_bind, Action.perform_get]
    dsimp only
    unfold visitBlock
    cases here : s'.blocks[i]? with
    | none => rfl
    | some b =>
      dsimp only
      by_cases loaded : b.entries.isSome
      · rw [if_pos loaded, if_pos loaded]
        rfl
      · rw [if_neg loaded, if_neg loaded, Action.perform_bind, Action.perform_lift]
        unfold filesOf
        cases table.block? i with
        | none => rfl
        | some refs => exact perform_atBlock here _

/-- Loading a block only reads. -/
theorem continues_visitBlock {table : Reference.Table} {i : Nat} (held : s.table = some table) :
    s.Continues (visitBlock table i s).2 := by
  unfold visitBlock
  cases here : s.blocks[i]? with
  | none => exact .refl s
  | some b =>
    dsimp only
    by_cases loaded : b.entries.isSome
    · rw [if_pos loaded]
      exact .refl s
    · rw [if_neg loaded]
      cases named : table.block? i with
      | none => exact .refl s
      | some refs =>
        have reads := Desk.reads_load refs table s.options.sharePointers ⟨s.channel, b⟩
        refine ⟨reads, rfl, (·.withDesk i _), fun r => r.withDesk (by rw [reads.files]; rfl),
          fun Q P loads q u => .withDesk held named (fun j refs' b' named' here' _ => ?_) ?_⟩
        · rw [reads.files]
          exact u table j refs' b' held named' here'
        · rw [reads.files]
          exact loads.load table refs _ ⟨s.channel, b⟩ q (u table i refs b held named here)

theorem continues_loadBlock (s : Session) (i : Nat) :
    s.Continues ((loadBlock i).perform s).2 := by
  rw [perform_loadBlock]
  obtain ⟨outcome, s', done, continues, held, -⟩ := loadTable_cases s
  rw [done]
  cases outcome with
  | error e => exact continues
  | ok table => exact continues.trans (continues_visitBlock (held table rfl))

theorem continues_loadBlocks (s : Session) (blocks : List Nat) :
    s.Continues ((loadBlocks blocks).perform s).2 := by
  induction blocks generalizing s with
  | nil => exact .refl s
  | cons i rest ih =>
    rw [perform_loadBlocks_cons]
    exact (continues_loadBlock s i).trans (ih _)

theorem perform_load (s : Session) : load.perform s =
    match loadTable.perform s with
    | (.error e, s) => (.error e, s)
    | (.ok table, s) =>
      let s := ((loadBlocks (List.range table.blocks.length)).perform s).2
      (.ok s.entries, s) := by
  have never (blocks : List Nat) (s : Session) : ((loadBlocks blocks).perform s).1 = .ok () := by
    induction blocks generalizing s with
    | nil => rfl
    | cons i rest ih =>
      rw [perform_loadBlocks_cons]
      exact ih _
  unfold load
  rw [Action.perform_bind]
  rcases loadTable.perform s with ⟨e | table, s'⟩
  · rfl
  · have done := never (List.range table.blocks.length) s'
    dsimp only
    rw [Action.perform_bind]
    rcases rest : (loadBlocks (List.range table.blocks.length)).perform s' with ⟨outcome, s''⟩
    rw [rest] at done
    cases done
    rfl

theorem continues_load (s : Session) : s.Continues (load.perform s).2 := by
  rw [perform_load]
  obtain ⟨outcome, s', done, continues, -⟩ := loadTable_cases s
  rw [done]
  cases outcome with
  | error e => exact continues
  | ok table => exact continues.trans (continues_loadBlocks s' _)

/-- Every command but an update only reads. -/
theorem continues_or_update (s : Session) (command : Command) : s.Continues (s.obey command).2 ∨
    ∃ position old new kind, command = .update position old new kind := by
  cases command with
  | load => exact .inl (continues_load s)
  | loadBlock i => exact .inl (continues_loadBlock s i)
  | invalidate =>
    left
    have shaped : s.Shaped → s.invalidate.Shaped := (List.length_map ..).trans
    refine ⟨.refl _, rfl, shaped, fun r => ⟨r.table, r.absent, shaped r.blocks⟩,
      fun Q P loads _ u => ?_⟩
    · intro table i refs b held named here
      have here : (s.blocks.map BlockState.invalidate)[i]? = some b := here
      rw [List.getElem?_map] at here
      obtain ⟨b', here', rfl⟩ := Option.map_eq_some_iff.1 here
      exact loads.invalidate table refs _ b' (u table i refs b' held named here')
  | reset =>
    left
    refine ⟨.refl _, rfl, fun _ => rfl, fun r => ⟨nofun, nofun, rfl⟩, fun Q P _ _ _ => ?_⟩
    intro table i refs b held
    cases held
  | update position old new kind => exact .inr ⟨position, old, new, kind, rfl⟩

/-! ## Updating -/

/-- The entry at a position of the session is the one at `offset` in block `i`. -/
structure Visit (s : Session) (position i offset : Nat) (table : Reference.Table)
    (refs : Reference.Block) (b : BlockState) : Prop where
  located : s.locate? position = some (i, offset)
  held : s.table = some table
  named : table.block? i = some refs
  here : s.blocks[i]? = some b
  inside : offset < b.entryCount

/-- The slot of a kind that the index-pointer record held of an entry names. -/
def slotOf? (s : Session) (kind : FieldKind) (block offset : Nat) : Option Nat :=
  match s.linkage kind with
  | .type1 => none
  | .type2 position =>
    s.blocks[block]?.bind fun b => (b.pointer? offset).bind (pointedSlot? · position)

/-- The first free slot of a kind in a block. -/
def firstFree? (s : Session) (kind : FieldKind) (block : Nat) : Option Nat :=
  (s.blocks[block]?.bind (·.store kind)).bind (·.firstFree?)

theorem Visit.upheld {P : BlockProperty} {position i offset : Nat} {table : Reference.Table}
    {refs : Reference.Block} {b : BlockState} (v : s.Visit position i offset table refs b)
    (u : s.Upholds P) : P table refs (refs.on s.card.files) b :=
  u table i refs b v.held v.named v.here

variable {position i offset : Nat} {table : Reference.Table} {refs : Reference.Block}
  {b : BlockState}

theorem linkage_of_table (held : s.table = some table) (kind : FieldKind) :
    s.linkage kind = table.linkage kind := by
  unfold Session.linkage
  rw [held]

theorem Visit.slotOf?_eq (v : s.Visit position i offset table refs b) {kind : FieldKind}
    {place : Nat} (pointed : table.linkage kind = .type2 place) (other : Nat) :
    s.slotOf? kind i other = (b.pointer? other).bind (pointedSlot? · place) := by
  have linkage : s.linkage kind = .type2 place := (linkage_of_table v.held kind).trans pointed
  unfold slotOf?
  rw [linkage]
  dsimp only
  rw [v.here]
  rfl

theorem Visit.linkage_of_slotOf? {other slot : Nat} (v : s.Visit position i offset table refs b)
    {kind : FieldKind} (names : s.slotOf? kind i other = some slot) :
    ∃ place, table.linkage kind = .type2 place := by
  unfold slotOf? Session.linkage at names
  rw [v.held] at names
  dsimp only at names
  cases linkage : table.linkage kind with
  | type1 =>
    rw [linkage] at names
    cases names
  | type2 place => exact ⟨place, rfl⟩

/-- An entry that is found is loaded, and has its address record. -/
theorem Visit.loaded (v : s.Visit position i offset table refs b) : b.entries.isSome := by
  have inside := v.inside
  unfold BlockState.entryCount at inside
  cases loaded : b.entries with
  | none =>
    rw [loaded] at inside
    cases inside
  | some es => rfl

theorem Visit.lt_addressCount (v : s.Visit position i offset table refs b) {files : BlockFiles}
    (mirrors : b.Mirrors table files) : offset < files.addressCount := by
  obtain ⟨es, loaded⟩ := Option.isSome_iff_exists.1 v.loaded
  have inside := v.inside
  unfold BlockState.entryCount at inside
  rw [loaded] at inside
  rw [← (mirrors.entries es loaded).2.1]
  exact inside

theorem Visit.withDesk (v : s.Visit position i offset table refs b) {d : Desk}
    (count : d.block.entryCount = b.entryCount) :
    (s.withDesk i d).Visit position i offset table refs d.block where
  located := (locateIn_set v.here count position).trans v.located
  held := v.held
  named := v.named
  here := getElem?_withDesk_self v.here d
  inside := by
    rw [count]
    exact v.inside

theorem perform_update (v : s.Visit position i offset table refs b) (old new : Text)
    (kind : FieldKind) : (update position old new kind).perform s =
      let work := (Desk.edit refs (table.linkage kind) kind offset old new).perform ⟨s.channel, b⟩
      (work.1, s.withDesk i work.2) := by
  unfold update
  rw [Action.perform_bind, Action.perform_get]
  dsimp only
  rw [v.located]
  dsimp only
  rw [Action.perform_bind, Action.perform_lift]
  unfold heldTable
  rw [v.held]
  dsimp only
  rw [Action.perform_bind, Action.perform_lift]
  unfold filesOf
  rw [v.named]
  exact perform_atBlock v.here _

/-- An update is refused at once and changes nothing, or it is an edit of an entry's block. -/
theorem update_cases (s : Session) (position : Nat) (old new : Text) (kind : FieldKind) :
    (∃ e, (update position old new kind).perform s = (.error e, s) ∧ e ≠ .pointerBeyondRecord) ∨
    ∃ i offset table refs b, s.Visit position i offset table refs b := by
  cases located : s.locate? position with
  | none =>
    left
    unfold update
    rw [Action.perform_bind, Action.perform_get]
    dsimp only
    rw [located]
    exact ⟨_, rfl, nofun⟩
  | some place =>
    obtain ⟨i, offset⟩ := place
    obtain ⟨b, here, inside⟩ := locateIn_eq_some located
    cases held : s.table with
    | none =>
      left
      unfold update
      rw [Action.perform_bind, Action.perform_get]
      dsimp only
      rw [located]
      dsimp only
      rw [Action.perform_bind, Action.perform_lift]
      unfold heldTable
      rw [held]
      exact ⟨_, rfl, nofun⟩
    | some table =>
      cases named : table.block? i with
      | none =>
        left
        unfold update
        rw [Action.perform_bind, Action.perform_get]
        dsimp only
        rw [located]
        dsimp only
        rw [Action.perform_bind, Action.perform_lift]
        unfold heldTable
        rw [held]
        dsimp only
        rw [Action.perform_bind, Action.perform_lift]
        unfold filesOf
        rw [named]
        exact ⟨_, rfl, nofun⟩
      | some refs => exact .inr ⟨i, offset, table, refs, b, located, held, named, here, inside⟩

theorem obey_update (s : Session) (position : Nat) (old new : Text) (kind : FieldKind) :
    s.obey (.update position old new kind) =
      (obey.refusal ((update position old new kind).perform s).1,
        ((update position old new kind).perform s).2) := rfl

theorem Visit.obey_eq (v : s.Visit position i offset table refs b) (old new : Text)
    (kind : FieldKind) : s.obey (.update position old new kind) =
      let work := (Desk.edit refs (table.linkage kind) kind offset old new).perform ⟨s.channel, b⟩
      (obey.refusal work.1, s.withDesk i work.2) := by
  rw [obey_update, perform_update v]

theorem Visit.ended (v : s.Visit position i offset table refs b) {old new : Text} {kind : FieldKind}
    (ok : (s.obey (.update position old new kind)).1 = none) :
    ∃ d', Desk.Ended refs (table.linkage kind) kind offset old new ⟨s.channel, b⟩ (.ok ()) d' ∧
      (s.obey (.update position old new kind)).2 = s.withDesk i d' := by
  have ended := Desk.edit_ended refs (table.linkage kind) kind offset old new ⟨s.channel, b⟩
  rw [v.obey_eq] at ok ⊢
  generalize (Desk.edit refs (table.linkage kind) kind offset old new).perform _ = work at *
  obtain ⟨outcome, d'⟩ := work
  cases outcome with
  | error e => cases ok
  | ok u => exact ⟨d', ended, rfl⟩

/-- An update is refused at once and changes nothing, or it ends as an edit of an entry's block
does. -/
theorem obey_update_cases (s : Session) (position : Nat) (old new : Text) (kind : FieldKind) :
    (∃ e, s.obey (.update position old new kind) = (some e, s) ∧ e ≠ .pointerBeyondRecord) ∨
    ∃ i offset table refs b outcome d', s.Visit position i offset table refs b ∧
      Desk.Ended refs (table.linkage kind) kind offset old new ⟨s.channel, b⟩ outcome d' ∧
      s.obey (.update position old new kind) = (obey.refusal outcome, s.withDesk i d') := by
  rcases update_cases s position old new kind with
    ⟨e, refused, early⟩ | ⟨i, offset, table, refs, b, v⟩
  · left
    refine ⟨e, ?_, early⟩
    rw [obey_update, refused]
    rfl
  · right
    exact ⟨i, offset, table, refs, b, _, _, v,
      Desk.edit_ended refs (table.linkage kind) kind offset old new ⟨s.channel, b⟩,
      v.obey_eq old new kind⟩

theorem ended_of_obey {position : Nat} {old new : Text} {kind : FieldKind}
    (ok : (s.obey (.update position old new kind)).1 = none) :
    ∃ i offset table refs b d', s.Visit position i offset table refs b ∧
      Desk.Ended refs (table.linkage kind) kind offset old new ⟨s.channel, b⟩ (.ok ()) d' ∧
      (s.obey (.update position old new kind)).2 = s.withDesk i d' := by
  rcases update_cases s position old new kind with
    ⟨e, refused, -⟩ | ⟨i, offset, table, refs, b, v⟩
  · rw [obey_update, refused] at ok
    cases ok
  · obtain ⟨d', ended, performed⟩ := v.ended ok
    exact ⟨i, offset, table, refs, b, d', v, ended, performed⟩

theorem options_obey (s : Session) (command : Command) :
    (s.obey command).2.options = s.options := by
  rcases s.continues_or_update command with continues | ⟨position, old, new, kind, rfl⟩
  · exact continues.options
  · rcases obey_update_cases s position old new kind with
      ⟨e, refused, -⟩ | ⟨i, offset, table, refs, b, outcome, d', v, ended, performed⟩
    · rw [refused]
    · rw [performed]
      rfl

/-! ## Runs -/

/-- Every command of a run comes to a session that fulfils the condition. -/
def Along (C : Session → Command → Prop) : Session → List Command → Prop
  | _, [] => True
  | s, command :: rest => C s command ∧ Along C (s.obey command).2 rest

/-- A property that every command keeps holds at the end of a run. -/
theorem run_invariant {motive : Session → Prop}
    (step : ∀ s command, motive s → motive (s.obey command).2) (start : motive s)
    (commands : List Command) : motive (s.run commands) := by
  induction commands generalizing s with
  | nil => exact start
  | cons command rest ih => exact ih (step s command start)

theorem run_induction {motive : Session → Prop} {C : Session → Command → Prop}
    (step : ∀ s command, motive s → C s command → motive (s.obey command).2)
    {commands : List Command} (start : motive s) (h : Along C s commands) :
    motive (s.run commands) := by
  induction commands generalizing s with
  | nil => exact start
  | cons command rest ih => exact ih (step s command start h.1) h.2

/-! ## Histories -/

/-- A property that every event keeps holds at the end of a history. -/
theorem after_invariant {motive : Session → Prop}
    (step : ∀ s event, motive s → motive (s.meet event)) (start : motive s)
    (events : List Event) : motive (s.after events) := by
  induction events generalizing s with
  | nil => exact start
  | cons event rest ih => exact ih (step s event start)

theorem options_after (s : Session) (events : List Event) :
    (s.after events).options = s.options :=
  after_invariant (motive := fun later => later.options = s.options)
    (fun later event same => by
      cases event with
      | command command => exact (options_obey later command).trans same
      | fault op file => exact same) rfl events

theorem options_run (s : Session) (commands : List Command) :
    (s.run commands).options = s.options := by
  rw [← after_commands]
  exact options_after s _

/-- A property that every command keeps, and every other card, holds whatever happened to the card
between the commands. -/
theorem despite_invariant {motive : Session → Prop}
    (step : ∀ s command, motive s → motive (s.obey command).2)
    (swap : ∀ s card, motive s → motive (s.onCard fun _ => card)) (start : motive s)
    (incidents : List Incident) : motive (s.despite incidents) := by
  induction incidents generalizing s with
  | nil => exact start
  | cons incident rest ih =>
    refine ih ?_
    cases incident with
    | command command => exact step s command start
    | card card => exact swap s card start

end UsimPhonebook.Session
