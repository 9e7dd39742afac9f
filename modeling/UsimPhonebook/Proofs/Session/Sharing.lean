import UsimPhonebook.Proofs.Session.Mirroring
import UsimPhonebook.Proofs.Session.Requests
import UsimPhonebook.Proofs.Session.Undisturbed

/-! # Sharing the index-pointer records

Both kinds of field can be linked by the same index-pointer records. A session that does not share
them between the kinds reads them once more (`Desk.loadPointers_again`) and holds the same in the
end, for on a card without faults they are what they were. So two sessions that differ in nothing
else go side by side, and one is ahead of the other by the requests for what it reads again
(`Session.ahead_turn`).

`Session.sharing_saves_requests` says that a load gives the same either way, and counts what
sharing saves.
-/

namespace UsimPhonebook

/-- The block names a file for the kind, and its records are linked by index-pointer records. -/
def Reference.Block.links (refs : Reference.Block) (table : Reference.Table) (kind : FieldKind) :
    Bool :=
  (table.linkage kind).isType2 && (refs.file? (.ofKind kind)).isSome

/-- The address records of the block can be read, index-pointer records link both kinds, and there
are some. -/
def Reference.Block.rereads (refs : Reference.Block) (table : Reference.Table)
    (files : CardFiles) : Bool :=
  (refs.on files .adn).isSome && refs.links table .email && refs.links table .anr &&
    ((refs.on files).perEntry .iap).any (!·.isEmpty)

/-- The other card has the same files and has served `n` requests more; no fault is pending on
either. -/
structure Card.Ahead (n : Nat) (card card' : Card) : Prop where
  files : card'.files = card.files
  calm : card.faults = []
  calm' : card'.faults = []
  count : card'.requestCount = card.requestCount + n

namespace Desk

variable {refs : Reference.Block} {table : Reference.Table} {share : Bool} {kind : FieldKind}
  {d d' : Desk} {n : Nat}

/-- The other desk holds the same, and its card is ahead by `n` requests. -/
structure Ahead (n : Nat) (d d' : Desk) : Prop where
  block : d'.block = d.block
  card : d.card.Ahead n d'.card

theorem requestCount_ask (d : Desk) (request : Request) :
    (d.ask request).2.card.requestCount = d.card.requestCount + 1 := by
  rw [(asked_ask d request).requestCount_eq, Nat.add_comm]
  rfl

theorem congruence_ahead (n : Nat) : Congruence (Ahead n) where
  ask request :=
    { fewer := fun d => by
        rw [Action.perform_of, faults_ask]
        exact List.erase_sublist
      like := fun d d' ahead _ => by
        have calm := calm_of_faultless ahead.card.calm request
        have calm' := calm_of_faultless ahead.card.calm' request
        obtain ⟨outcome, files, faults⟩ := Card.serve_congr ahead.card.files calm calm'
        have count := ahead.card.count
        rw [Action.perform_of, Action.perform_of]
        refine ⟨?_, ahead.block, ?_, ?_, ?_, ?_⟩
        · rw [ask_fst, ask_fst, outcome]
        · rw [card_ask, card_ask, files]
        · exact (follows_ask d request).faultless ahead.card.calm
        · exact (follows_ask d' request).faultless ahead.card.calm'
        · rw [requestCount_ask, requestCount_ask]
          omega }
  current := .look (x := fun d : Desk => .ok d.block) fun _ _ ahead =>
    congrArg Except.ok ahead.block
  change f :=
    { fewer := fun _ => List.Sublist.refl _
      like := fun _ _ ahead _ => ⟨rfl, congrArg f ahead.block, ahead.card⟩ }

theorem Ahead.perform {α : Type} {a : Action Desk α} (ahead : Ahead n d d')
    (h : Undisturbed (Ahead n) a) :
    (a.perform d').1 = (a.perform d).1 ∧ Ahead n (a.perform d).2 (a.perform d').2 := by
  refine h.like d d' ahead ?_
  have fewer := h.fewer d
  rw [ahead.card.calm] at fewer ⊢
  exact List.sublist_nil.1 fewer

/-! ## Where nothing is shared -/

theorem loadPointers_of_none (none : d.block.pointers = none) (share : Bool) :
    (loadPointers refs share).perform d = (loadPointers refs false).perform d := by
  unfold loadPointers
  simp only [Action.perform_bind, perform_current, none, Option.isSome_none, Bool.and_false]

/-- A kind that no index-pointer records link is read as if none were shared. -/
theorem completeField_of_unshared
    (apart : (refs.links table kind && d.block.pointers.isSome) = false) (share : Bool) :
    (completeField refs table share kind).perform d =
      (completeField refs table false kind).perform d := by
  have same : (loadField refs (table.linkage kind) share kind).perform d =
      (loadField refs (table.linkage kind) false kind).perform d := by
    unfold Reference.Block.links at apart
    unfold loadField
    cases named : refs.file? (.ofKind kind) with
    | none => rfl
    | some id =>
      unfold loadRecords
      cases linkage : table.linkage kind with
      | type1 => rfl
      | type2 position =>
        rw [linkage, named] at apart
        have none : d.block.pointers = none := by simpa [Linkage.isType2] using apart
        simp only [Action.perform_bind, loadPointers_of_none none share]
  unfold completeField
  simp only [Action.perform_bind, perform_current]
  split
  · rfl
  · rw [Action.perform_ignoringFailure, Action.perform_ignoringFailure, same]

/-! ## Where something is shared -/

theorem perform_loadPointers_unshared {id : FileId} (named : refs.file? .iap = some id) (d : Desk) :
    (loadPointers refs false).perform d =
      (readSubset id d.block.numbers >>= keepPointers).perform d := by
  unfold loadPointers
  simp only [Action.perform_bind, perform_current, Bool.false_and, Bool.false_eq_true, if_false,
    named]

section

variable (mirrors : d.block.Mirrors table (refs.on d.card.files)) (loaded : d.block.entries.isSome)
  (calm : d.card.faults = [])

include mirrors loaded calm

/-- To read index-pointer records again that are held is one request, and leaves the block as it
is. -/
theorem loadPointers_again (held : d.block.pointers.isSome) :
    ∃ d', (loadPointers refs false).perform d = (.ok true, d') ∧ Ahead 1 d d' := by
  obtain ⟨records, kept⟩ := Option.isSome_iff_exists.1 held
  obtain ⟨read, nonempty⟩ := mirrors.pointers records kept
  obtain ⟨iap, found, selected⟩ := Option.map_eq_some_iff.1 read
  obtain ⟨id, named, there⟩ := Option.bind_eq_some_iff.1 found
  have selected : iap.select d.block.numbers = records := by
    rw [numbers_of_loaded mirrors loaded, RecordFile.select_recordNumbers, selected]
  have reads : d.card.Reads (d.ask (.readSubset id d.block.numbers)).2.card :=
    ask_reads (.inl nofun)
  have count := requestCount_ask d (.readSubset id d.block.numbers)
  have outcome := (ask_of_calm (.readSubset id d.block.numbers) (calm_of_faultless calm _) there).1
  have block := block_ask d (.readSubset id d.block.numbers)
  rw [perform_loadPointers_unshared named, Action.perform_bind, perform_readSubset]
  rcases done : d.ask (.readSubset id d.block.numbers) with ⟨answer, d'⟩
  rw [done] at reads count outcome block
  have outcome : answer = .ok records := by
    rw [← selected]
    exact outcome
  subst outcome
  have some : records.isEmpty = false := by simpa using nonempty
  dsimp only
  rw [perform_keepPointers, some]
  refine ⟨_, rfl, ?_, reads.files, calm, reads.faultless calm, count⟩
  show d'.block.holdPointers records = d.block
  unfold BlockState.holdPointers
  rw [block, some, if_neg (by decide), ← kept]

/-- Whether index-pointer records are held once those of a first kind were read. -/
theorem pointers_complete (missing : d.block.store kind = none) (none : d.block.pointers = none)
    (share : Bool) : (complete refs table share kind d).block.pointers.isSome =
      (refs.links table kind && ((refs.on d.card.files).perEntry .iap).any (!·.isEmpty)) := by
  let R (d d' : Desk) := d'.block.pointers = d.block.pointers
  have trans (a b c : Desk) : R a b → R b c → R a c := fun h h' => Eq.trans h' h
  have keep (records : List Bytes) : (keepRecords kind records).Within R :=
    fun d => d.block.pointers_setStore kind _
  unfold complete completeField Reference.Block.links
  simp only [Action.perform_bind, perform_current]
  rw [if_neg (by rw [missing]; nofun), Action.perform_ignoringFailure]
  unfold loadField
  cases named : refs.file? (.ofKind kind) with
  | none =>
    show d.block.pointers.isSome = _
    rw [none, Option.isSome_none, Option.isSome_none, Bool.and_false, Bool.false_and]
  | some id =>
    unfold loadRecords
    cases linkage : table.linkage kind with
    | type1 =>
      show ((readSubset id d.block.numbers >>= keepRecords kind).perform
        d).2.block.pointers.isSome = false
      rw [Action.Within.bind trans (a := readSubset id d.block.numbers) (fun _ => rfl) keep d, none]
      rfl
    | type2 position =>
      obtain ⟨outcome, d₁, read, filled, held, whole⟩ := loadPointers_cases mirrors loaded share
      have pointers : d₁.block.pointers.isSome =
          ((refs.on d.card.files).perEntry .iap).any (!·.isEmpty) := by
        rw [Bool.eq_iff_iff, Option.any_eq_true]
        simp only [Bool.not_eq_true', List.isEmpty_eq_false_iff]
        constructor
        · intro some
          obtain ⟨records, kept⟩ := Option.isSome_iff_exists.1 some
          exact ⟨records, filled.mirrors.pointers records kept⟩
        · exact fun there => held (whole calm there)
      rw [show (Linkage.type2 position).isType2 = true from rfl, Option.isSome_some, Bool.and_true,
        Bool.true_and, ← pointers, Action.perform_bind, read]
      rcases outcome with e | _ | _
      · rfl
      · rfl
      · show ((readAll id >>= keepRecords kind).perform d₁).2.block.pointers.isSome = _
        rw [Action.Within.bind trans (a := readAll id) (fun _ => rfl) keep d₁]

end

theorem Ahead.trans {d'' : Desk} {m : Nat} (h : Ahead n d d') (h' : Ahead m d' d'') :
    Ahead (n + m) d d'' where
  block := h'.block.trans h.block
  card := by
    refine ⟨h'.card.files.trans h.card.files, h.card.calm, h'.card.calm', ?_⟩
    rw [h'.card.count, h.card.count, Nat.add_assoc]

/-- The kind is seen to at both desks. Where index-pointer records are held that link it, the desk
that does not share them asks for them once more. -/
theorem Ahead.complete (ahead : Ahead n d d')
    (mirrors : d.block.Mirrors table (refs.on d.card.files)) (loaded : d.block.entries.isSome)
    (missing : d.block.store kind = none) :
    Ahead (n + if refs.links table kind && d.block.pointers.isSome then 1 else 0)
      (complete refs table true kind d) (complete refs table false kind d') := by
  by_cases shared : (refs.links table kind && d.block.pointers.isSome) = true
  · rw [if_pos shared]
    obtain ⟨links, held⟩ := Bool.and_eq_true_iff.1 shared
    obtain ⟨pointed, file⟩ := Bool.and_eq_true_iff.1 links
    obtain ⟨id, named⟩ := Option.isSome_iff_exists.1 file
    obtain ⟨position, linkage⟩ : ∃ position, table.linkage kind = .type2 position := by
      cases linkage : table.linkage kind with
      | type1 =>
        rw [linkage] at pointed
        cases pointed
      | type2 position => exact ⟨position, rfl⟩
    have work (share : Bool) (d d₁ : Desk) (missing : d.block.store kind = none)
        (linked : (loadPointers refs share).perform d = (.ok true, d₁)) :
        Desk.complete refs table share kind d =
          ((readAll id >>= keepRecords kind).perform d₁).2 := by
      unfold Desk.complete completeField loadField loadRecords
      simp only [Action.perform_bind, perform_current, missing, Option.isSome_none,
        Bool.false_eq_true, if_false, Action.perform_ignoringFailure, named, linkage, linked,
        if_true]
    have once : (loadPointers refs true).perform d = (.ok true, d) := by
      unfold loadPointers
      simp only [Action.perform_bind, perform_current, held, Bool.and_self, if_true]
      rfl
    have mirrors' : d'.block.Mirrors table (refs.on d'.card.files) := by
      rw [ahead.block, ahead.card.files]
      exact mirrors
    obtain ⟨d'', again, further⟩ := loadPointers_again mirrors' (by rw [ahead.block]; exact loaded)
      ahead.card.calm' (by rw [ahead.block]; exact held)
    rw [work true d d missing once, work false d' d'' (by rw [ahead.block, missing]) again]
    have congruence := congruence_ahead (n + 1)
    exact ((ahead.trans further).perform
      (.bind (congruence.ask (.readAll id)) fun records => congruence.change _)).2
  · rw [if_neg shared]
    have unshared := completeField_of_unshared (Bool.eq_false_iff.2 shared) true
    unfold Desk.complete
    rw [unshared]
    exact (ahead.perform ((congruence_ahead n).completeField refs table false kind)).2

theorem Ahead.load (ahead : Ahead n d d') (refs : Reference.Block) (table : Reference.Table)
    (unread : d.block = {}) :
    ((Desk.load refs table false).perform d').1 = ((Desk.load refs table true).perform d).1 ∧
      Ahead (n + if refs.rereads table d.card.files then 1 else 0)
        ((Desk.load refs table true).perform d).2 ((Desk.load refs table false).perform d').2 := by
  obtain ⟨same, ahead₁⟩ := ahead.perform ((congruence_ahead n).loadEntries refs)
  unfold Reference.Block.rereads
  rw [perform_load, perform_load]
  rcases done' : (loadEntries refs).perform d' with ⟨outcome, d₁'⟩
  rw [done'] at same ahead₁
  rcases loadEntries_cases refs d with
    ⟨e, d₁, failed, -, -, absent⟩ | ⟨es, d₁, done, block, reads, adn, length, -⟩
  · rw [failed] at same ahead₁ ⊢
    have same : outcome = .error e := same
    subst same
    rw [absent ahead.card.calm]
    exact ⟨rfl, ahead₁⟩
  · rw [done] at same ahead₁ ⊢
    have same : outcome = .ok () := same
    subst same
    have loaded : d₁.block.entries.isSome := by rw [block]; rfl
    have mirrors : d₁.block.Mirrors table (refs.on d₁.card.files) := by
      rw [reads.files, block, unread]
      exact (BlockState.mirrors_empty table _).withEntries adn length
    have missing (kind : FieldKind) : d₁.block.store kind = none := by
      rw [block, unread]
      cases kind <;> rfl
    have none : d₁.block.pointers = none := by rw [block, unread]
    have email := ahead₁.complete mirrors loaded (missing .email)
    rw [none, Option.isSome_none, Bool.and_false, if_neg Bool.false_ne_true, Nat.add_zero] at email
    obtain ⟨d₂, read, filled, -⟩ := completeField_cases mirrors loaded true .email
    have after : Desk.complete refs table true .email d₁ = d₂ := congrArg Prod.snd read
    have pointers := pointers_complete mirrors loaded ahead₁.card.calm (missing .email) none true
    have store : (Desk.complete refs table true .email d₁).block.store .anr = d₁.block.store .anr :=
      store_complete_of_ne (show FieldKind.anr ≠ .email by nofun) d₁
    dsimp only [atKind]
    rw [after] at email pointers store ⊢
    have anr := email.complete (by rw [filled.reads.files]; exact filled.mirrors)
      (by rw [filled.entries]; exact loaded) (store.trans (missing .anr))
    rw [pointers, reads.files] at anr
    have count : (refs.links table .anr && (refs.links table .email &&
        ((refs.on d.card.files).perEntry .iap).any (!·.isEmpty))) =
        ((refs.on d.card.files .adn).isSome && refs.links table .email && refs.links table .anr &&
          ((refs.on d.card.files).perEntry .iap).any (!·.isEmpty)) := by
      rw [adn, Bool.true_and, ← Bool.and_assoc, Bool.and_comm (refs.links table .anr)]
    rw [count] at anr
    exact ⟨rfl, congrArg (·.join table) anr.block, anr.card⟩

end Desk

/-! ## The whole load -/

namespace Session

variable {s s' : Session} {table : Reference.Table} {refs : Reference.Block} {n : Nat}

/-- The other session holds the same, and its card is ahead by `n` requests. -/
structure Ahead (n : Nat) (s s' : Session) : Prop where
  table : s'.table = s.table
  absent : s'.absent = s.absent
  blocks : s'.blocks = s.blocks
  card : s.card.Ahead n s'.card

/-- A new session that is told whether to share index-pointer records between the kinds. -/
abbrev startSharing (share : Bool) (card : Card) (options : Options) : Session :=
  start card { options with sharePointers := share }

/-- Whether records are shared makes no difference to reading the table. -/
theorem loadTable_startSharing (share : Bool) (card : Card) (options : Options) :
    loadTable.perform (startSharing share card options) =
      ((loadTable.perform (start card options)).1,
        { (loadTable.perform (start card options)).2 with
          options := { options with sharePointers := share } }) := by
  rw [perform_loadTable_start, perform_loadTable_start]
  unfold readTable start
  simp only [Action.perform_of]
  rcases Channel.ask _ (.readAll options.referenceFile) with ⟨_ | _ | _, channel⟩ <;> rfl

theorem loadTable_startSharing_fst (share : Bool) (card : Card) (options : Options) :
    (loadTable.perform (startSharing share card options)).1 =
      (loadTable.perform (start card options)).1 := by
  rw [loadTable_startSharing]

section

variable {card : Card} (calm : card.faults = []) {options : Options}

include calm

theorem ahead_loadTable : Ahead 0 (loadTable.perform (startSharing true card options)).2
    (loadTable.perform (startSharing false card options)).2 := by
  have reads := (continues_turn (start card options) 0).reads
  have files : (loadTable.perform (start card options)).2.card.files = card.files := reads.files
  have quiet : (loadTable.perform (start card options)).2.card.faults = [] := reads.faultless calm
  rw [loadTable_startSharing true, loadTable_startSharing false]
  exact ⟨rfl, rfl, rfl, rfl, quiet, quiet, rfl⟩

omit calm in
theorem countP_take_succ {i : Nat} (named : table.block? i = some refs) (files : CardFiles) :
    (table.blocks.take (i + 1)).countP (·.rereads table files) =
      (table.blocks.take i).countP (·.rereads table files) +
        if refs.rereads table files then 1 else 0 := by
  rw [List.take_add_one, show table.blocks[i]? = some refs from named, Option.toList_some,
    List.countP_append, List.countP_singleton]

/-- Where a load comes to block `i` the session that does not share has asked once more for each
block before it of which it reads the index-pointer records again. -/
theorem ahead_turn (had : (loadTable.perform (start card options)).1 = .ok table) {i : Nat}
    (inside : i ≤ table.blocks.length) :
    Ahead ((table.blocks.take i).countP (·.rereads table card.files))
      ((startSharing true card options).turn i) ((startSharing false card options).turn i) := by
  have had (share : Bool) : (loadTable.perform (startSharing share card options)).1 = .ok table :=
    (loadTable_startSharing_fst share card options).trans had
  induction i with
  | zero => exact ahead_loadTable calm
  | succ i ih =>
    have ahead := ih (Nat.le_of_succ_le inside)
    obtain ⟨refs, named⟩ : ∃ refs, table.block? i = some refs :=
      ⟨_, List.getElem?_eq_getElem inside⟩
    have here (share : Bool) : ((startSharing share card options).turn i).blocks[i]? = some {} := by
      rw [blocks_turn_of_le (tabled_loadTable (had share)) (Nat.le_refl i),
        unread_start (had share) inside]
    have share (share : Bool) :
        ((startSharing share card options).turn i).options.sharePointers = share :=
      congrArg Options.sharePointers (continues_turn _ i).options
    have files : (Desk.card ⟨((startSharing true card options).turn i).channel, {}⟩).files =
        card.files := (continues_turn (startSharing true card options) i).reads.files
    have together : Desk.Ahead _ ⟨((startSharing true card options).turn i).channel, {}⟩
      ⟨((startSharing false card options).turn i).channel, {}⟩ := ⟨rfl, ahead.card⟩
    obtain ⟨-, block, after⟩ := together.load refs table rfl
    rw [files] at after
    rw [turn_succ (tabled_loadTable (had true)), turn_succ (tabled_loadTable (had false)),
      visitBlock_of_unread (here true) rfl named, visitBlock_of_unread (here false) rfl named,
      share, share, countP_take_succ named]
    refine ⟨ahead.table, ahead.absent, ?_, after⟩
    exact congrArg₂ (List.set · i ·) ahead.blocks block

/-- What a load saves in requests if records are shared. -/
def saved (s : Session) (files : CardFiles) : Nat :=
  (s.table.map fun table => table.blocks.countP (·.rereads table files)).getD 0

theorem ahead_load :
    (load.perform (startSharing false card options)).1 =
        (load.perform (startSharing true card options)).1 ∧
      Ahead ((load.perform (startSharing true card options)).2.saved card.files)
        (load.perform (startSharing true card options)).2
        (load.perform (startSharing false card options)).2 := by
  rcases had : (loadTable.perform (start card options)).1 with e | table
  · have failed (share : Bool) :
        (loadTable.perform (startSharing share card options)).1 = .error e :=
      (loadTable_startSharing_fst share card options).trans had
    rw [perform_load_of_error (failed true), perform_load_of_error (failed false)]
    unfold saved
    rw [untabled_start (failed true)]
    exact ⟨rfl, ahead_loadTable calm⟩
  · have had' (share : Bool) :
        (loadTable.perform (startSharing share card options)).1 = .ok table :=
      (loadTable_startSharing_fst share card options).trans had
    have ahead := ahead_turn calm had (Nat.le_refl table.blocks.length)
    have held : ((startSharing true card options).turn table.blocks.length).table = some table :=
      (tabled_turn (tabled_loadTable (had' true)) _).table
    rw [List.take_length] at ahead
    rw [perform_load_of_table (had' true), perform_load_of_table (had' false)]
    unfold saved
    rw [held]
    refine ⟨congrArg Except.ok ?_, ahead⟩
    unfold entries
    rw [ahead.blocks]

/-- On a card without pending faults it makes no difference to what a load gives and holds whether
index-pointer records are shared between the kinds. A session that does not share them makes one
request more for each block of which the address records can be read, both kinds are linked by
index-pointer records and have a file, and there are index-pointer records; and it makes as many
requests for each other block. -/
theorem sharing_saves_requests (options : Options) :
    let s := startSharing true card options
    let s' := startSharing false card options
    let loaded := (load.perform s).2
    let loaded' := (load.perform s').2
    (load.perform s').1 = (load.perform s).1 ∧ loaded'.table = loaded.table ∧
    loaded'.absent = loaded.absent ∧ loaded'.blocks = loaded.blocks ∧
    loaded'.entries = loaded.entries ∧
    (∀ kind, loaded'.freeCount kind = loaded.freeCount kind ∧
      (∀ block, loaded'.freeInBlock kind block = loaded.freeInBlock kind block) ∧
      ∀ position, loaded'.freeForEntry kind position = loaded.freeForEntry kind position) ∧
    (∀ table i refs, loaded.table = some table → table.block? i = some refs →
      (s'.requestsAt i).length =
        (s.requestsAt i).length + if refs.rereads table card.files then 1 else 0) ∧
    loaded'.card.requestCount = loaded.card.requestCount + loaded.saved card.files := by
  intro s s' loaded loaded'
  have saves : (load.perform s').1 = (load.perform s).1 ∧
      Ahead (loaded.saved card.files) loaded loaded' := ahead_load calm
  obtain ⟨same, ahead⟩ := saves
  have table : loaded'.table = loaded.table := ahead.table
  have blocks : loaded'.blocks = loaded.blocks := ahead.blocks
  refine ⟨same, table, ahead.absent, blocks, ?_, fun kind => ⟨?_, fun block => ?_,
    fun position => ?_⟩, fun table i refs held named => ?_, ahead.card.count⟩
  · unfold entries
    rw [blocks]
  · unfold freeCount linkage
    rw [table, blocks]
  · unfold freeInBlock
    rw [blocks]
  · unfold freeForEntry locate? freeForOffset freeInBlock linkage
    rw [table, blocks]
  · have had : (loadTable.perform (start card options)).1 = .ok table :=
      (loadTable_startSharing_fst true card options).symm.trans (had_of_held held)
    have had' (share : Bool) :
        (loadTable.perform (startSharing share card options)).1 = .ok table :=
      (loadTable_startSharing_fst share card options).trans had
    have inside := (List.getElem?_eq_some_iff.1 named).1
    have before := (ahead_turn calm had (Nat.le_of_lt inside)).card.count
    have after := (ahead_turn calm had (show i + 1 ≤ _ from inside)).card.count
    have asked := (asked_requestsAt (tabled_loadTable (had' true)) i).requestCount_eq
    have asked' := (asked_requestsAt (tabled_loadTable (had' false)) i).requestCount_eq
    rw [countP_take_succ named] at after
    show ((startSharing false card options).requestsAt i).length =
      ((startSharing true card options).requestsAt i).length + _
    omega

end

/-- The record of the reference file of `twinCard`. -/
def twinRecord : Bytes := [0xA8, 0x08, 0xC0, 0x02, 0x4F, 0x3A, 0xC1, 0x02, 0x4F, 0x25,
  0xA9, 0x08, 0xCA, 0x02, 0x4F, 0x50, 0xC4, 0x02, 0x4F, 0x11]

/-- Both kinds of the block are linked by index-pointer records, so that these are read twice. -/
theorem sharing_twinCard :
    (load.perform (startSharing false twinCard {})).1 =
        (load.perform (startSharing true twinCard {})).1 ∧
      (load.perform (startSharing false twinCard {})).2.blocks =
        (load.perform (startSharing true twinCard {})).2.blocks ∧
      ((startSharing true twinCard {}).requestsAt 0).length = 4 ∧
      ((startSharing false twinCard {}).requestsAt 0).length = 5 := by
  have calm : twinCard.faults = [] := rfl
  have held : (load.perform (startSharing true twinCard {})).2.table =
      some (.parse [twinRecord]) := by
    decide +kernel
  obtain ⟨same, -, -, blocks, -, -, requests, -⟩ := sharing_saves_requests calm {}
  have shared : ((startSharing true twinCard {}).requestsAt 0).length = 4 := by decide +kernel
  refine ⟨same, blocks, shared, (requests _ 0 _ held rfl).trans ?_⟩
  rw [shared]
  decide +kernel

end Session

end UsimPhonebook
