import UsimPhonebook.Proofs.Session.Numbering
import UsimPhonebook.Proofs.Session.Requests

/-! # What is held is not read again

After a load all of whose requests succeeded nothing is left to read (`Session.cached_load`), and no
command but an `invalidate` or a `reset` changes that (`Session.Cached.suffer`), for an update keeps
as many entries as there were. Where nothing is left to read a load asks for nothing and changes
nothing (`Session.Cached.perform_load`).

An `invalidate` drops the entries alone. The load after it asks for address records and extension
records, and for what an earlier load has failed to read (`Session.requestsAt_invalidate`).
`Session.held_data_not_read_again` states both.
-/

namespace UsimPhonebook

/-- The incident drops nothing that was read: it is a load, an update, or not a command at all. -/
def Incident.Retains : Incident → Prop
  | .command .invalidate => False
  | .command .reset => False
  | _ => True

namespace Desk

variable {refs : Reference.Block} {table : Reference.Table} {share : Bool} {d d' : Desk}

/-- If a block names an address file its load fails only by a request that fails. -/
theorem failures_of_load_error {e : Error} (adn : (refs.file? .adn).isSome)
    (failed : (load refs table share).perform d = (.error e, d')) :
    d.card.failures < d'.card.failures := by
  obtain ⟨id, named⟩ := Option.isSome_iff_exists.1 adn
  rw [perform_load] at failed
  unfold loadEntries fileOf at failed
  rw [Action.perform_bind, Action.perform_lift, named] at failed
  dsimp only at failed
  rw [Action.perform_bind, perform_readAll] at failed
  rcases asked : d.ask (.readAll id) with ⟨cause | records, d₁⟩
  · rw [asked] at failed
    cases failed
    have counted := failures_ask_of_error (congrArg Prod.fst asked)
    rwa [asked] at counted
  · obtain ⟨es, d₂, extended, -⟩ := extendEntries_cases refs (decodeEntries id records) d₁
    rw [asked] at failed
    dsimp only at failed
    rw [Action.perform_bind, extended] at failed
    cases failed

theorem loaded_of_unfailing (adn : (refs.file? .adn).isSome)
    (unfailing : d.card.Unfailing ((load refs table share).perform d).2.card) :
    ((load refs table share).perform d).2.block.entries.isSome := by
  rcases load_ends refs table share d with ⟨e, d', failed, -⟩ | ⟨b, es, d', ok, block, loaded⟩
  · rw [failed] at unfailing
    exact absurd unfailing (Nat.ne_of_gt (failures_of_load_error adn failed))
  · obtain ⟨es', joined, -⟩ := BlockState.strip_join loaded table
    rw [ok]
    show d'.block.entries.isSome
    rw [block, joined]
    rfl

end Desk

namespace Session

variable {s : Session} {table : Reference.Table} {refs : Reference.Block} {i : Nat}

/-! ## Nothing left to read -/

/-- The table is held, and so are the entries of every block that names an address file. -/
structure Cached (s : Session) (table : Reference.Table) : Prop extends s.Tabled table where
  shaped : s.Shaped
  loaded : s.Upholds fun _ refs _ b => (refs.file? .adn).isSome → b.entries.isSome

namespace Cached

theorem visitBlock_snd (cached : s.Cached table) (i : Nat) : (visitBlock table i s).2 = s := by
  unfold visitBlock
  cases here : s.blocks[i]? with
  | none => rfl
  | some b =>
    dsimp only
    split
    · rfl
    · next unread =>
      cases named : table.block? i with
      | none => rfl
      | some refs =>
        have unnamed : refs.file? .adn = none := by
          rw [← Option.not_isSome_iff_eq_none]
          exact fun adn => unread (cached.loaded table i refs b cached.table named here adn)
        dsimp only
        rw [Desk.load_unnamed unnamed]
        exact withDesk_eq_self here

theorem perform_loadBlock (cached : s.Cached table) (named : table.block? i = some refs)
    (adn : (refs.file? .adn).isSome) : (loadBlock i).perform s = (.ok (), s) := by
  rw [cached.toTabled.perform_loadBlock]
  obtain ⟨b, here⟩ := cached.shaped.block cached.table named
  exact visitBlock_of_held here (cached.loaded table i refs b cached.table named here adn)

theorem perform_loadBlocks (cached : s.Cached table) (blocks : List Nat) :
    ((loadBlocks blocks).perform s).2 = s := by
  induction blocks with
  | nil => rfl
  | cons i rest ih =>
    rw [perform_loadBlocks_cons, cached.toTabled.perform_loadBlock, cached.visitBlock_snd, ih]

theorem perform_load (cached : s.Cached table) : load.perform s = (.ok s.entries, s) := by
  rw [Session.perform_load, cached.toTabled.perform_loadTable]
  dsimp only
  rw [cached.perform_loadBlocks]

theorem suffer (cached : s.Cached table) {incident : Incident} (retains : incident.Retains) :
    (s.suffer incident).Cached table := by
  cases incident with
  | card card =>
    exact ⟨⟨cached.absent, cached.table⟩, cached.shaped, cached.loaded⟩
  | command command =>
    cases command with
    | invalidate => exact retains.elim
    | reset => exact retains.elim
    | load =>
      show (load.perform s).2.Cached table
      rwa [cached.perform_load]
    | loadBlock i =>
      show ((loadBlock i).perform s).2.Cached table
      rwa [cached.toTabled.perform_loadBlock, cached.visitBlock_snd]
    | update position old new kind =>
      show (s.obey (.update position old new kind)).2.Cached table
      rcases obey_update_cases s position old new kind with
        ⟨e, refused, -⟩ | ⟨i, offset, table', refs, b, outcome, d', v, ended, performed⟩
      · rw [refused]
        exact cached
      · rw [performed]
        have same : d'.block.entries.isSome = b.entries.isSome := by
          rcases ended.entries_cases with ⟨-, same⟩ | ⟨-, values, changed⟩
          · rw [same]
          · rw [changed, Option.isSome_map]
        refine ⟨⟨cached.absent, cached.table⟩, cached.shaped.withDesk i d', .withDesk v.held v.named
          (fun j refs' b' named' here' _ => cached.loaded table' j refs' b' v.held named' here') ?_⟩
        rw [same]
        exact v.upheld cached.loaded

theorem despite (cached : s.Cached table) {incidents : List Incident}
    (retain : ∀ incident ∈ incidents, incident.Retains) :
    (s.despite incidents).Cached table := by
  induction incidents generalizing s with
  | nil => exact cached
  | cons incident rest ih =>
    obtain ⟨first, others⟩ := List.forall_mem_cons.1 retain
    exact ih (cached.suffer first) others

end Cached

/-! ## After a load that succeeds -/

/-- A load all of whose requests succeed leaves nothing to read. -/
theorem cached_load (shaped : s.Shaped) {es : List Entry} (ok : (load.perform s).1 = .ok es)
    (unfailing : s.card.Unfailing (load.perform s).2.card) :
    ∃ table, (load.perform s).2.Cached table := by
  obtain ⟨table, had⟩ := table_of_load ok
  have start := tabled_loadTable had
  rw [perform_load_of_table had] at unfailing ⊢
  have shaped (n : Nat) : (s.turn n).Shaped := (continues_turn s n).shaped shaped
  refine ⟨table, ⟨tabled_turn start _, shaped _, ?_⟩⟩
  intro table' i refs b held named here adn
  cases held.symm.trans (tabled_turn start _).table
  have inside : i < table.blocks.length := (List.getElem?_eq_some_iff.1 named).1
  obtain ⟨b₀, here₀⟩ := (shaped i).block (tabled_turn start i).table named
  have calm : (s.turn i).card.Unfailing (s.turn (i + 1)).card := by
    have first := (continues_turn s i).reads.failures
    have turn := (continues_turns start (Nat.le_add_right i 1)).reads.failures
    have rest : (s.turn (i + 1)).card.failures ≤ (s.turn table.blocks.length).card.failures :=
      (continues_turns start inside).reads.failures
    have none : (s.turn table.blocks.length).card.failures = s.card.failures := unfailing
    unfold Card.Unfailing
    omega
  rw [blocks_turn_of_lt start inside, turn_succ start] at here
  rw [turn_succ start] at calm
  cases loaded : b₀.entries with
  | some es =>
    rw [visitBlock_of_held here₀ (by rw [loaded]; rfl), here₀] at here
    cases here
    rw [loaded]
    rfl
  | none =>
    rw [visitBlock_of_unread here₀ loaded named] at here calm
    dsimp only at here
    rw [getElem?_withDesk_self here₀] at here
    cases here
    exact Desk.loaded_of_unfailing adn calm

/-! ## After an invalidate -/

/-- A session that found the reference file to be empty holds no table. -/
def Settled (s : Session) : Prop := s.absent = true → s.table = none

theorem Settled.loadTable (settled : s.Settled) : (loadTable.perform s).2.Settled := by
  rw [perform_loadTable]
  split
  · exact settled
  · next there =>
    cases held : s.table with
    | some table =>
      intro absent
      exact absurd absent there
    | none =>
      show (readTable.perform s).2.Settled
      unfold readTable
      rw [Action.perform_of]
      rcases s.channel.ask (.readAll s.options.referenceFile) with ⟨_ | _ | _, channel⟩
      · exact fun _ => held
      · exact fun _ => held
      · exact fun absent => absurd absent there

theorem Settled.loadBlock (settled : s.Settled) (i : Nat) :
    ((Session.loadBlock i).perform s).2.Settled := by
  have read := settled.loadTable
  rw [perform_loadBlock]
  rcases done : Session.loadTable.perform s with ⟨e | table, s₁⟩ <;> rw [done] at read
  · exact read
  · obtain ⟨held, absent, -⟩ := visitBlock_frame table i s₁
    intro empty
    exact held.trans (read (absent.symm.trans empty))

theorem Settled.loadBlocks (settled : s.Settled) (blocks : List Nat) :
    ((Session.loadBlocks blocks).perform s).2.Settled := by
  induction blocks generalizing s with
  | nil => exact settled
  | cons i rest ih =>
    rw [perform_loadBlocks_cons]
    exact ih (settled.loadBlock i)

theorem Settled.obey (settled : s.Settled) (command : Command) :
    (s.obey command).2.Settled := by
  cases command with
  | load =>
    have read := settled.loadTable
    show (load.perform s).2.Settled
    rw [Session.perform_load]
    rcases done : Session.loadTable.perform s with ⟨e | table, s₁⟩ <;> rw [done] at read
    · exact read
    · exact Settled.loadBlocks read _
  | loadBlock i => exact settled.loadBlock i
  | invalidate => exact settled
  | reset => exact fun _ => rfl
  | update position old new kind =>
    rcases obey_update_cases s position old new kind with
      ⟨e, refused, -⟩ | ⟨i, offset, table', refs, b, outcome, d', v, ended, performed⟩
    · rw [refused]
      exact settled
    · rw [performed]
      exact settled

theorem settled_despite (card : Card) (options : Options) (incidents : List Incident) :
    ((start card options).despite incidents).Settled :=
  despite_invariant (motive := Settled) (fun _ command settled => settled.obey command)
    (fun _ _ settled => settled) (fun _ => rfl) incidents

theorem Settled.tabled (settled : s.Settled) (held : s.table = some table) : s.Tabled table where
  absent := by
    rw [← Bool.not_eq_true]
    intro absent
    cases (settled absent).symm.trans held
  table := held

/-- A block of which all kinds are held is read again by its address records. -/
theorem requestsAt_unread {b : BlockState} {id : FileId} (tabled : s.Tabled table)
    (named : table.block? i = some refs) (here : s.blocks[i]? = some b) (unread : b.entries = none)
    (adn : refs.file? .adn = some id)
    (held : ∀ kind, (refs.file? (.ofKind kind)).isSome → (b.store kind).isSome) :
    s.requestsAt i =
      Desk.addressRequests refs id ((s.turn i).card.serve (.readAll id)).1 := by
  have start : (loadTable.perform s).2.Tabled table := by
    rw [tabled.perform_loadTable]
    exact tabled
  have here : (s.turn i).blocks[i]? = some b := by
    rw [blocks_turn_of_le start (Nat.le_refl i), tabled.perform_loadTable]
    exact here
  have asked := Desk.asked_loadEntries adn ⟨(s.turn i).channel, b⟩
  unfold requestsAt
  rw [turn_succ start, visitBlock_of_unread here unread named]
  refine Card.Asked.requestsUntil_eq ?_
  dsimp only
  rw [card_withDesk, Desk.perform_load]
  rcases Desk.loadEntries_cases refs ⟨(s.turn i).channel, b⟩ with
    ⟨e, d, failed, -⟩ | ⟨es, d, done, block, -⟩
  · rw [failed] at asked ⊢
    exact asked
  · rw [done] at asked ⊢
    have idle (kind : FieldKind) (file : (refs.file? (.ofKind kind)).isSome) :
        (d.block.store kind).isSome := by
      rw [block]
      cases kind <;> exact held _ file
    dsimp only [Desk.atKind]
    rw [Desk.complete_idle (idle .email), Desk.complete_idle (idle .anr)]
    exact asked

/-- What is held is not read again, whatever commands led to the session and whatever happened to
the card between them.

After a load that succeeds, and of which no request failed, further loads ask for nothing and change
nothing, until the entries are dropped; and so does the load of any block that names an address
file.

After an `invalidate` a load reads no table, and of the blocks it reads only files that they name.
For a block with all records of its kinds these are the address records, and the extension records
if the address records can be read and one of them names any. -/
theorem held_data_not_read_again (card : Card) (options : Options) (incidents : List Incident) :
    let s := (start card options).despite incidents
    (∀ es, (load.perform s).1 = .ok es → s.card.Unfailing (load.perform s).2.card →
      ∀ more : List Incident, (∀ incident ∈ more, incident.Retains) →
        let later := (load.perform s).2.despite more
        load.perform later = (.ok later.entries, later) ∧
        ∀ table i refs, later.table = some table → table.block? i = some refs →
          (refs.file? .adn).isSome → (loadBlock i).perform later = (.ok (), later)) ∧
    ∀ table, s.table = some table →
      let again := s.invalidate
      again.card.requestsUntil (load.perform again).2.card =
        (List.range table.blocks.length).flatMap again.requestsAt ∧
      ∀ i refs, table.block? i = some refs → ∃ b, s.blocks[i]? = some b ∧
        (∀ request ∈ again.requestsAt i, refs.Consults request) ∧
        ∀ id, refs.file? .adn = some id →
          (∀ kind, (refs.file? (.ofKind kind)).isSome → (b.store kind).isSome) →
          again.requestsAt i =
            Desk.addressRequests refs id ((again.turn i).card.serve (.readAll id)).1 := by
  intro s
  have shaped : s.Shaped := (counted_despite card options incidents).shaped
  refine ⟨fun es ok unfailing more retain => ?_, fun table held => ?_⟩
  · obtain ⟨table, cached⟩ := cached_load shaped ok unfailing
    have cached := cached.despite retain
    refine ⟨cached.perform_load, fun table' i refs held named adn => ?_⟩
    cases held.symm.trans cached.table
    exact cached.perform_loadBlock named adn
  · intro again
    have settled : again.Settled := settled_despite card options incidents
    have tabled : again.Tabled table := settled.tabled held
    have had := tabled.perform_loadTable
    have start : (loadTable.perform again).2.Tabled table := had ▸ tabled
    refine ⟨?_, fun i refs named => ?_⟩
    · have asked := asked_turns start table.blocks.length
      rw [perform_load_of_table (congrArg Prod.fst had)]
      have first : again.turn 0 = again := congrArg Prod.snd had
      rw [first] at asked
      exact asked.requestsUntil_eq
    · obtain ⟨b, here⟩ := shaped.block held named
      refine ⟨b, here, consults_requestsAt start named, fun id adn stored => ?_⟩
      have dropped : again.blocks[i]? = some b.invalidate := by
        show (s.blocks.map BlockState.invalidate)[i]? = _
        rw [List.getElem?_map, here]
        rfl
      refine requestsAt_unread tabled named dropped rfl adn fun kind file => ?_
      rw [BlockState.store_invalidate]
      exact stored kind file

/-- The record of the reference file for a block with address and extension records. -/
def extendedRecord : Bytes := [0xA8, 0x08, 0xC0, 0x02, 0x4F, 0x3A, 0xC2, 0x02, 0x4F, 0x4A]

/-- A block of one entry, whose number goes on in an extension record. -/
def extendedCard : Card where
  files := ⟨[
    (.ofNat 0x4F30, ⟨10, [extendedRecord]⟩),
    (.ofNat 0x4F3A, ⟨14, [[0x02, 0x81, 0x21] ++ Bytes.blank 10 ++ [0x01]]⟩),
    (.ofNat 0x4F4A, ⟨13, [[0x02, 0x01, 0x43] ++ Bytes.blank 10]⟩)]⟩

/-- When all was read and an update was refused, nothing is asked for any more. Once the entries are
dropped it is the address records and the extension records. -/
theorem held_data_extendedCard :
    let s := (load.perform (start extendedCard {})).2
    let later := s.despite [.command (.update 0 [] ['1'] .anr), .command .load]
    load.perform later = (.ok later.entries, later) ∧
    (loadBlock 0).perform later = (.ok (), later) ∧
    s.invalidate.requestsAt 0 = [.readAll (.ofNat 0x4F3A), .readAll (.ofNat 0x4F4A)] := by
  intro s later
  obtain ⟨further, -⟩ := held_data_not_read_again extendedCard {} []
  obtain ⟨-, again⟩ := held_data_not_read_again extendedCard {} [.command .load]
  have unfailing : (start extendedCard {}).card.Unfailing s.card := by
    unfold Card.Unfailing
    decide +kernel
  obtain ⟨nothing, blocks⟩ := further s.entries (by decide +kernel) unfailing
    [.command (.update 0 [] ['1'] .anr), .command .load] (by simp [Incident.Retains])
  refine ⟨nothing, ?_, ?_⟩
  · exact blocks (.parse [extendedRecord]) 0 _ (by decide +kernel) rfl rfl
  · obtain ⟨-, each⟩ := again (.parse [extendedRecord]) (by decide +kernel)
    obtain ⟨b, -, -, requests⟩ := each 0 _ rfl
    refine (requests (.ofNat 0x4F3A) rfl ?_).trans (by decide +kernel)
    intro kind
    cases kind <;> nofun

end Session

end UsimPhonebook
