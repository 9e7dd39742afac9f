import UsimPhonebook.Proofs.Card.Serving
import UsimPhonebook.Proofs.Session.Joining

/-! # What loading a block achieves

Loading writes nothing. It fails and leaves the block as it is, or it ends in joining a block that
holds what is on the card (`Desk.load_cases`). On a card without faults it fails only if the
address records are not there, it holds every kind whose files are there, and its entries are those
of the address records (`BlockFiles.plainEntries`).
-/

namespace UsimPhonebook

/-- The entries of the address records, with nothing joined to them. -/
def BlockFiles.plainEntries (files : BlockFiles) (refs : Reference.Block) :
    Option (List Entry) :=
  match refs.file? .adn, files .adn with
  | some id, some file =>
    let entries := Desk.decodeEntries id file.records
    match entries.any (·.extension.isSome), files .ext1 with
    | true, some extensions => some (entries.map (·.extend extensions.records))
    | _, _ => some entries
  | _, _ => none

/-- The request reads records of a file that the block names. -/
structure Reference.Block.Consults (refs : Reference.Block) (request : Request) : Prop where
  op : request.op = .readAll ∨ request.op = .readSubset
  file : ∃ tag, refs.file? tag = some request.file

theorem Reference.Block.Consults.ne_write {refs : Reference.Block} {request : Request}
    (h : refs.Consults request) : request.op ≠ .write := by
  rcases h.op with op | op <;> rw [op] <;> nofun

theorem Reference.Block.consults_readAll {refs : Reference.Block} {tag : FileTag} {id : FileId}
    (named : refs.file? tag = some id) : refs.Consults (.readAll id) := ⟨.inl rfl, tag, named⟩

theorem Reference.Block.consults_readSubset {refs : Reference.Block} {tag : FileTag} {id : FileId}
    (named : refs.file? tag = some id) (numbers : List Nat) :
    refs.Consults (.readSubset id numbers) := ⟨.inr rfl, tag, named⟩

namespace Action

variable {σ α β : Type} {R : σ → σ → Prop}

/-- The action leads only where the relation leads. -/
def Within (R : σ → σ → Prop) (a : Action σ α) : Prop := ∀ s, R s (a.perform s).2

theorem Within.bind (trans : ∀ a b c, R a b → R b c → R a c) {a : Action σ α}
    {f : α → Action σ β} (h : a.Within R) (h' : ∀ x, (f x).Within R) : (a >>= f).Within R := by
  intro s
  have first := h s
  rw [perform_bind]
  rcases done : a.perform s with ⟨e | x, s'⟩
  · rw [done] at first
    exact first
  · rw [done] at first
    exact trans _ _ _ first (h' x s')

end Action

namespace BlockState

/-- Keeps index-pointer records that were read, unless there are none. -/
def holdPointers (b : BlockState) (records : List Bytes) : BlockState :=
  { b with pointers := if records.isEmpty then none else some records }

@[simp] theorem store_holdPointers (b : BlockState) (records : List Bytes) (kind : FieldKind) :
    (b.holdPointers records).store kind = b.store kind := by cases kind <;> rfl

theorem pointers_holdPointers {b : BlockState} {records held : List Bytes} :
    (b.holdPointers records).pointers = some held ↔ held ≠ [] ∧ held = records := by
  unfold holdPointers
  cases records with
  | nil => simp
  | cons record rest =>
    simp only [List.isEmpty_cons, Bool.false_eq_true, if_false, Option.some.injEq]
    constructor
    · rintro rfl
      exact ⟨by simp, rfl⟩
    · rintro ⟨-, rfl⟩
      rfl

/-- What is held is on the card when entries are put in place, one for each address record. -/
theorem Mirrors.withEntries {b : BlockState} {table : Reference.Table} {files : BlockFiles}
    (mirrors : b.Mirrors table files) {es : List Entry} (adn : (files .adn).isSome)
    (length : es.length = files.addressCount) :
    ({ b with entries := some es, numbers := Desk.recordNumbers es.length } : BlockState).Mirrors
      table files where
  entries es' h := by
    cases h
    exact ⟨adn, length, congrArg Desk.recordNumbers length⟩
  pointers := mirrors.pointers
  stored kind store h := mirrors.stored kind store (by cases kind <;> exact h)
  linked kind t h := mirrors.linked kind t (by cases kind <;> exact h)

end BlockState

namespace Desk

theorem perform_keepPointers (records : List Bytes) (d : Desk) :
    (keepPointers records).perform d =
      (.ok !records.isEmpty, { d with block := d.block.holdPointers records }) := rfl

variable {refs : Reference.Block} {table : Reference.Table} {share : Bool} {kind : FieldKind}
  {d : Desk}

theorem on_eq_some {tag : FileTag} {id : FileId} {file : RecordFile}
    (named : refs.file? tag = some id) (found : d.card.file? id = some file) :
    refs.on d.card.files tag = some file := by
  unfold Reference.Block.on
  rw [named]
  exact found

theorem on_eq_none {tag : FileTag} {id : FileId} (named : refs.file? tag = some id)
    (missing : d.card.file? id = none) : refs.on d.card.files tag = none := by
  unfold Reference.Block.on
  rw [named]
  exact missing

theorem on_eq_none_of_unnamed {tag : FileTag} (h : refs.file? tag = none) (files : CardFiles) :
    refs.on files tag = none := by
  unfold Reference.Block.on
  rw [h]
  rfl

/-! ## Address records -/

@[simp] theorem length_decodeEntries (id : FileId) (records : List Bytes) :
    (decodeEntries id records).length = records.length := by
  simp [decodeEntries]

/-- Numbers are extended by the extension records if these can be read. -/
theorem extendEntries_cases (refs : Reference.Block) (es : List Entry) (d : Desk) :
    ∃ es' d', (extendEntries refs es).perform d = (.ok es', d') ∧ d'.block = d.block ∧
      d.card.Reads d'.card ∧ es'.length = es.length ∧ (d.card.faults = [] →
        es' = match es.any (·.extension.isSome), refs.on d.card.files .ext1 with
          | true, some file => es.map (·.extend file.records)
          | _, _ => es) := by
  unfold extendEntries
  cases asked : es.any (·.extension.isSome) with
  | false =>
    have none : extensionFile? refs es = none := by simp [extensionFile?, asked]
    rw [none]
    exact ⟨es, d, rfl, rfl, .refl _, rfl, fun _ => rfl⟩
  | true =>
    cases named : refs.file? .ext1 with
    | none =>
      have none : extensionFile? refs es = none := by simp [extensionFile?, asked, named]
      rw [none]
      refine ⟨es, d, rfl, rfl, .refl _, rfl, fun _ => ?_⟩
      rw [on_eq_none_of_unnamed named]
    | some id =>
      have some : extensionFile? refs es = some id := by simp [extensionFile?, asked, named]
      rw [some]
      simp only [Action.perform_bind, Action.perform_attempt, perform_readAll]
      rcases read_cases d (.readAll id) nofun with
        ⟨e, d', failed, block, reads, missing⟩ |
          ⟨file, records, d', ok, block, reads, found, granted⟩
      · rw [failed]
        refine ⟨es, d', rfl, block, reads, rfl, fun calm => ?_⟩
        rw [on_eq_none named (missing calm)]
      · rw [ok]
        cases granted
        refine ⟨_, d', rfl, block, reads, List.length_map .., fun _ => ?_⟩
        rw [on_eq_some named found]

/-- Reading the address records fails and leaves the block as it is, or gives the entries. -/
theorem loadEntries_cases (refs : Reference.Block) (d : Desk) :
    (∃ e d', (loadEntries refs).perform d = (.error e, d') ∧ d'.block = d.block ∧
      d.card.Reads d'.card ∧ (d.card.faults = [] → refs.on d.card.files .adn = none)) ∨
    ∃ es d', (loadEntries refs).perform d = (.ok (), d') ∧
      d'.block = { d.block with entries := some es, numbers := recordNumbers es.length } ∧
      d.card.Reads d'.card ∧ (refs.on d.card.files .adn).isSome ∧
      es.length = (refs.on d.card.files).addressCount ∧
      (d.card.faults = [] → (refs.on d.card.files).plainEntries refs = some es) := by
  unfold loadEntries
  cases named : refs.file? .adn with
  | none =>
    left
    simp only [Action.perform_bind, Action.perform_lift, fileOf, named]
    exact ⟨_, d, rfl, rfl, .refl _, fun _ => on_eq_none_of_unnamed named _⟩
  | some id =>
    simp only [Action.perform_bind, Action.perform_lift, fileOf, named, perform_readAll]
    rcases read_cases d (.readAll id) nofun with
      ⟨e, d', failed, block, reads, missing⟩ | ⟨file, records, d', ok, block, reads, found, granted⟩
    · left
      rw [failed]
      exact ⟨e, d', rfl, block, reads, fun calm => on_eq_none named (missing calm)⟩
    · right
      rw [ok]
      cases granted
      obtain ⟨es, d'', extended, block', reads', length, entries⟩ :=
        extendEntries_cases refs (decodeEntries id file.records) d'
      have adn : refs.on d.card.files .adn = some file := on_eq_some named found
      dsimp only
      rw [extended]
      refine ⟨es, _, rfl, ?_, reads.trans reads', ?_, ?_, fun calm => ?_⟩
      · rw [block', block]
      · rw [adn]
        rfl
      · rw [length, length_decodeEntries]
        unfold BlockFiles.addressCount
        rw [adn]
      · rw [entries (reads.faultless calm), reads.files]
        unfold BlockFiles.plainEntries
        rw [named, adn]
        dsimp only
        split <;> rfl

/-! ## Fields -/

/-- Between `d` and `d'` records of fields were read into the block. -/
structure Filled (refs : Reference.Block) (table : Reference.Table) (d d' : Desk) : Prop where
  reads : d.card.Reads d'.card
  mirrors : d'.block.Mirrors table (refs.on d.card.files)
  entries : d'.block.entries = d.block.entries
  kept : ∀ kind, (d.block.store kind).isSome → (d'.block.store kind).isSome

theorem Filled.refl (mirrors : d.block.Mirrors table (refs.on d.card.files)) :
    Filled refs table d d :=
  ⟨.refl _, mirrors, rfl, fun _ => id⟩

theorem Filled.trans {a b c : Desk} (h : Filled refs table a b) (h' : Filled refs table b c) :
    Filled refs table a c where
  reads := h.reads.trans h'.reads
  mirrors := by
    rw [← h.reads.files]
    exact h'.mirrors
  entries := h'.entries.trans h.entries
  kept kind held := h'.kept kind (h.kept kind held)

/-- Asking for more adds nothing while the block stays as it is. -/
theorem Filled.of_reads {a b c : Desk} (h : Filled refs table a b) (reads : b.card.Reads c.card)
    (block : c.block = b.block) : Filled refs table a c where
  reads := h.reads.trans reads
  mirrors := block ▸ h.mirrors
  entries := by rw [block, h.entries]
  kept kind held := by
    rw [block]
    exact h.kept kind held

section

variable (mirrors : d.block.Mirrors table (refs.on d.card.files)) (loaded : d.block.entries.isSome)

include mirrors loaded

theorem numbers_of_loaded : d.block.numbers =
    recordNumbers (refs.on d.card.files).addressCount := by
  obtain ⟨es, h⟩ := Option.isSome_iff_exists.1 loaded
  exact (mirrors.entries es h).2.2

omit loaded in
theorem filled_holdPointers {records : List Bytes}
    (read : (refs.on d.card.files).perEntry .iap = some records) {d' : Desk}
    (reads : d.card.Reads d'.card) (block : d'.block = d.block.holdPointers records) :
    Filled refs table d d' := by
  have stores (kind : FieldKind) : d'.block.store kind = d.block.store kind := by
    rw [block, BlockState.store_holdPointers]
  refine ⟨reads, ⟨?_, ?_, ?_, ?_⟩, by rw [block]; rfl, fun kind held => by rw [stores]; exact held⟩
  · rw [block]
    exact mirrors.entries
  · intro records' h
    rw [block] at h
    obtain ⟨nonempty, rfl⟩ := BlockState.pointers_holdPointers.1 h
    exact ⟨read, nonempty⟩
  · intro kind store h
    rw [stores] at h
    exact mirrors.stored kind store h
  · intro kind t h
    rw [stores] at h
    obtain ⟨old, held⟩ := Option.isSome_iff_exists.1 (mirrors.linked kind t h)
    obtain ⟨read', nonempty⟩ := mirrors.pointers old held
    rw [read] at read'
    cases read'
    rw [block]
    exact Option.isSome_iff_exists.2 ⟨_, BlockState.pointers_holdPointers.2 ⟨nonempty, rfl⟩⟩

/-- Reading the index-pointer records gives whether there are any. -/
theorem loadPointers_cases (share : Bool) :
    ∃ outcome d', (loadPointers refs share).perform d = (outcome, d') ∧
      Filled refs table d d' ∧ (outcome = .ok true → d'.block.pointers.isSome) ∧
      (d.card.faults = [] →
        (∃ records, (refs.on d.card.files).perEntry .iap = some records ∧ records ≠ []) →
        outcome = .ok true) := by
  have same : Filled refs table d d := .refl mirrors
  unfold loadPointers
  simp only [Action.perform_bind, perform_current]
  by_cases held : (share && d.block.pointers.isSome) = true
  · rw [if_pos held]
    rw [Bool.and_eq_true] at held
    exact ⟨_, d, rfl, same, fun _ => held.2, fun _ _ => rfl⟩
  · rw [if_neg held]
    cases named : refs.file? .iap with
    | none =>
      refine ⟨.ok false, d, rfl, same, nofun, ?_⟩
      rintro - ⟨records, there, -⟩
      unfold BlockFiles.perEntry at there
      rw [on_eq_none_of_unnamed named] at there
      cases there
    | some id =>
      dsimp only
      rw [Action.perform_bind, perform_readSubset]
      rcases read_cases d (.readSubset id d.block.numbers) nofun with
        ⟨e, d', failed, block, reads, missing⟩ |
          ⟨file, records, d', ok, block, reads, found, granted⟩
      · rw [failed]
        refine ⟨.error e, d', rfl, same.of_reads reads block, nofun, fun calm there => ?_⟩
        obtain ⟨records, there, -⟩ := there
        unfold BlockFiles.perEntry at there
        rw [on_eq_none named (missing calm)] at there
        cases there
      · rw [ok]
        cases granted
        have read : (refs.on d.card.files).perEntry .iap =
            some (file.select d.block.numbers) := by
          unfold BlockFiles.perEntry
          rw [on_eq_some named found, numbers_of_loaded mirrors loaded,
            RecordFile.select_recordNumbers]
          rfl
        dsimp only
        rw [perform_keepPointers]
        generalize file.select d.block.numbers = records at read
        refine ⟨.ok !records.isEmpty, _, rfl, filled_holdPointers mirrors read reads
          (congrArg (·.holdPointers records) block), fun h => ?_, ?_⟩
        · have nonempty : records ≠ [] := by simpa using h
          exact Option.isSome_iff_exists.2
            ⟨_, BlockState.pointers_holdPointers.2 ⟨nonempty, rfl⟩⟩
        · rintro - ⟨records', there, nonempty⟩
          rw [read] at there
          cases there
          simpa using nonempty

theorem filled_keepRecords {records : List Bytes}
    (read : (refs.on d.card.files).fieldRecords (table.linkage kind) kind = some records)
    (pointers : (table.linkage kind).isType2 → d.block.pointers.isSome) {d' : Desk}
    (reads : d.card.Reads d'.card)
    (block : d'.block = d.block.setStore kind (.ofRecords records)) : Filled refs table d d' := by
  have entries : d'.block.entries = d.block.entries := by rw [block, BlockState.entries_setStore]
  have numbers : d'.block.numbers = d.block.numbers := by rw [block]; cases kind <;> rfl
  have held : d'.block.pointers = d.block.pointers := by rw [block, BlockState.pointers_setStore]
  have self : d'.block.store kind = some (.ofRecords records) := by
    rw [block, BlockState.store_setStore_self]
  have stores {other : FieldKind} (ne : other ≠ kind) :
      d'.block.store other = d.block.store other := by
    rw [block, BlockState.store_setStore_of_ne _ ne]
  refine ⟨reads, ⟨?_, ?_, ?_, ?_⟩, entries, fun other h => ?_⟩
  · rw [entries, numbers]
    exact mirrors.entries
  · rw [held]
    exact mirrors.pointers
  · intro other store h
    by_cases same : other = kind
    · subst same
      rw [self] at h
      cases h
      obtain ⟨es, h⟩ := Option.isSome_iff_exists.1 loaded
      exact ⟨(mirrors.entries es h).1, by rw [FieldStore.records_ofRecords]; exact read⟩
    · rw [stores same] at h
      exact mirrors.stored other store h
  · intro other t h
    rw [held]
    by_cases same : other = kind
    · subst same
      exact pointers t
    · rw [stores same] at h
      exact mirrors.linked other t h
  · by_cases same : other = kind
    · subst same
      rw [self]
      rfl
    · rw [stores same]
      exact h

theorem loadPositional_cases {id : FileId} (named : refs.file? (.ofKind kind) = some id)
    (own : table.linkage kind = .type1) (share : Bool) :
    ∃ outcome d', (loadRecords refs .type1 share kind id).perform d = (outcome, d') ∧
      Filled refs table d d' ∧ (d.card.faults = [] →
        (refs.on d.card.files).Readable (table.linkage kind) kind →
        (d'.block.store kind).isSome) := by
  unfold loadRecords
  simp only [Action.perform_bind, perform_current, perform_readSubset]
  rcases read_cases d (.readSubset id d.block.numbers) nofun with
    ⟨e, d', failed, block, reads, missing⟩ | ⟨file, records, d', ok, block, reads, found, granted⟩
  · rw [failed]
    refine ⟨.error e, d', rfl, (Filled.refl mirrors).of_reads reads block, fun calm readable => ?_⟩
    have there := readable.field
    rw [on_eq_none named (missing calm)] at there
    cases there
  · rw [ok]
    cases granted
    dsimp only
    have read : (refs.on d.card.files).fieldRecords (table.linkage kind) kind =
        some (file.select d.block.numbers) := by
      rw [own]
      unfold BlockFiles.fieldRecords BlockFiles.perEntry
      dsimp only
      rw [on_eq_some named found, numbers_of_loaded mirrors loaded,
        RecordFile.select_recordNumbers]
      rfl
    refine ⟨.ok (), _, rfl, filled_keepRecords mirrors loaded read (fun t => ?_) reads ?_,
      fun _ _ => ?_⟩
    · rw [own] at t
      cases t
    · rw [block]
    · rw [BlockState.store_setStore_self]
      rfl

theorem loadLinked_cases {id : FileId} {position : Nat}
    (named : refs.file? (.ofKind kind) = some id) (pointed : table.linkage kind = .type2 position)
    (share : Bool) :
    ∃ outcome d', (loadRecords refs (.type2 position) share kind id).perform d = (outcome, d') ∧
      Filled refs table d d' ∧ (d.card.faults = [] →
        (refs.on d.card.files).Readable (table.linkage kind) kind →
        (d'.block.store kind).isSome) := by
  have t : (table.linkage kind).isType2 := by rw [pointed]; rfl
  obtain ⟨outcome, d₁, linked, filled, held, complete⟩ := loadPointers_cases mirrors loaded share
  unfold loadRecords
  simp only [Action.perform_bind, linked]
  rcases outcome with e | _ | _
  · refine ⟨.error e, d₁, rfl, filled, fun calm readable => ?_⟩
    cases complete calm (readable.pointers t)
  · refine ⟨.ok (), d₁, rfl, filled, fun calm readable => ?_⟩
    cases complete calm (readable.pointers t)
  · simp only [if_true, Action.perform_bind, perform_readAll]
    rcases read_cases d₁ (.readAll id) nofun with
      ⟨e, d', failed, block, reads, missing⟩ |
        ⟨file, records, d', ok, block, reads, found, granted⟩
    · rw [failed]
      refine ⟨.error e, d', rfl, filled.of_reads reads block, fun calm readable => ?_⟩
      have there := readable.field
      rw [on_eq_none named] at there
      · cases there
      · rw [← filled.reads.file?]
        exact missing (filled.reads.faultless calm)
    · rw [ok]
      cases granted
      have read : (refs.on d₁.card.files).fieldRecords (table.linkage kind) kind =
          some file.records := by
        rw [pointed]
        show (refs.on d₁.card.files (.ofKind kind)).map (·.records) = _
        rw [on_eq_some named found]
        rfl
      have mirrors₁ : d₁.block.Mirrors table (refs.on d₁.card.files) := by
        rw [filled.reads.files]
        exact filled.mirrors
      refine ⟨.ok (), _, rfl, filled.trans (filled_keepRecords mirrors₁ ?_ read (fun _ => held rfl)
        reads ?_), fun _ _ => ?_⟩
      · rw [filled.entries]
        exact loaded
      · rw [block]
      · rw [BlockState.store_setStore_self]
        rfl

theorem loadRecords_cases {id : FileId} (named : refs.file? (.ofKind kind) = some id)
    (share : Bool) :
    ∃ outcome d', (loadRecords refs (table.linkage kind) share kind id).perform d = (outcome, d') ∧
      Filled refs table d d' ∧ (d.card.faults = [] →
        (refs.on d.card.files).Readable (table.linkage kind) kind →
        (d'.block.store kind).isSome) := by
  cases linkage : table.linkage kind with
  | type1 => exact linkage ▸ loadPositional_cases mirrors loaded named linkage share
  | type2 position => exact linkage ▸ loadLinked_cases mirrors loaded named linkage share

/-- Seeing to the records of a kind reads them if it can, and never fails. -/
theorem completeField_cases (share : Bool) (kind : FieldKind) :
    ∃ d', (completeField refs table share kind).perform d = (.ok (), d') ∧
      Filled refs table d d' ∧ (d.card.faults = [] →
        (refs.on d.card.files).Readable (table.linkage kind) kind →
        (d'.block.store kind).isSome) := by
  unfold completeField
  simp only [Action.perform_bind, perform_current]
  by_cases held : (d.block.store kind).isSome
  · rw [if_pos held]
    exact ⟨d, rfl, .refl mirrors, fun _ _ => held⟩
  · rw [if_neg held, Action.perform_ignoringFailure]
    unfold loadField
    cases named : refs.file? (.ofKind kind) with
    | none =>
      refine ⟨d, rfl, .refl mirrors, fun _ readable => ?_⟩
      have there := readable.field
      rw [on_eq_none_of_unnamed named] at there
      cases there
    | some id =>
      obtain ⟨outcome, d', done, filled, complete⟩ :=
        loadRecords_cases mirrors loaded named share
      dsimp only
      rw [done]
      exact ⟨d', rfl, filled, complete⟩

end

/-! ## The whole block -/

/-- Loading fails and leaves the block as it is, or it ends in joining a block that holds what is
on the card. -/
theorem load_cases (mirrors : d.block.Mirrors table (refs.on d.card.files)) (share : Bool) :
    (∃ e d', (load refs table share).perform d = (.error e, d') ∧ d'.block = d.block ∧
      d.card.Reads d'.card ∧ (d.card.faults = [] → refs.on d.card.files .adn = none)) ∨
    ∃ (b : BlockState) (es : List Entry) (d' : Desk),
      (load refs table share).perform d = (.ok (), d') ∧ d'.block = b.join table ∧
      d.card.Reads d'.card ∧ b.Mirrors table (refs.on d.card.files) ∧ b.entries = some es ∧
      (refs.on d.card.files .adn).isSome ∧ (d.card.faults = [] →
        (refs.on d.card.files).plainEntries refs = some es ∧
        ∀ kind, (refs.on d.card.files).Readable (table.linkage kind) kind →
          (b.store kind).isSome) := by
  unfold load
  simp only [Action.perform_bind, perform_change]
  rcases loadEntries_cases refs d with
    ⟨e, d', failed, block, reads, missing⟩ | ⟨es, d₁, ok, block, reads, adn, length, plain⟩
  · rw [failed]
    exact .inl ⟨e, d', rfl, block, reads, missing⟩
  · rw [ok]
    dsimp only
    have entries₁ : d₁.block.entries = some es := by rw [block]
    have mirrors₁ : d₁.block.Mirrors table (refs.on d₁.card.files) := by
      rw [reads.files, block]
      exact mirrors.withEntries adn length
    obtain ⟨d₂, ok₂, email, readable₂⟩ :=
      completeField_cases mirrors₁ (by rw [entries₁]; rfl) share .email
    have mirrors₂ : d₂.block.Mirrors table (refs.on d₂.card.files) := by
      rw [email.reads.files]
      exact email.mirrors
    have entries₂ : d₂.block.entries = some es := by rw [email.entries, entries₁]
    obtain ⟨d₃, ok₃, anr, readable₃⟩ :=
      completeField_cases mirrors₂ (by rw [entries₂]; rfl) share .anr
    rw [ok₂]
    dsimp only
    rw [ok₃]
    refine .inr ⟨d₃.block, es, _, rfl, rfl, (reads.trans email.reads).trans anr.reads, ?_, ?_, adn,
      fun calm => ⟨plain calm, fun kind readable => ?_⟩⟩
    · have := anr.mirrors
      rwa [email.reads.files, reads.files] at this
    · rw [anr.entries, entries₂]
    · cases kind with
      | email =>
        apply anr.kept
        apply readable₂ (reads.faultless calm)
        rw [reads.files]
        exact readable
      | anr =>
        apply readable₃ (email.reads.faultless (reads.faultless calm))
        rw [email.reads.files, reads.files]
        exact readable

/-! ## Whatever is held before -/

/-- An extension file that is asked for is one that the block names. -/
theorem named_of_extensionFile? {es : List Entry} {id : FileId}
    (asked : extensionFile? refs es = some id) : refs.file? .ext1 = some id := by
  unfold extensionFile? at asked
  split at asked
  · exact asked
  · cases asked

/-- Reading the address records leads nowhere but where its requests and its change of the block
lead. -/
theorem within_loadEntries {R : Desk → Desk → Prop} (refl : ∀ d, R d d)
    (trans : ∀ a b c, R a b → R b c → R a c)
    (ask : ∀ (d : Desk) (request : Request), refs.Consults request → R d (d.ask request).2)
    (put : ∀ es, (change fun b => { b with
      entries := some es, numbers := recordNumbers es.length }).Within R) :
    (loadEntries refs).Within R := by
  have extend (es : List Entry) : (extendEntries refs es).Within R := by
    unfold extendEntries
    cases asked : extensionFile? refs es with
    | none => exact refl
    | some id =>
      refine .bind trans (fun d => ?_) fun records => ?_
      · rw [Action.perform_attempt]
        exact ask d _ (Reference.Block.consults_readAll (named_of_extensionFile? asked))
      · cases records <;> exact refl
  intro d
  unfold loadEntries fileOf
  rw [Action.perform_bind, Action.perform_lift]
  cases named : refs.file? .adn with
  | none => exact refl d
  | some id =>
    exact Action.Within.bind trans
      (fun d => ask d _ (Reference.Block.consults_readAll named))
      (fun _ => .bind trans (extend _) put) d

/-- Loading leads nowhere but where its requests, its look at the index-pointer records, and its
changes of the block lead. -/
theorem within_load {R : Desk → Desk → Prop} (refl : ∀ d, R d d)
    (trans : ∀ a b c, R a b → R b c → R a c)
    (ask : ∀ (d : Desk) (request : Request), refs.Consults request → R d (d.ask request).2)
    (pointers : ∀ share, (loadPointers refs share).Within R)
    (step : ∀ f : BlockState → BlockState, (∀ b, (f b).pointers = b.pointers ∧
      ((f b).numbers = b.numbers ∨ ∃ n, (f b).numbers = recordNumbers n)) → (change f).Within R)
    (share : Bool) : (load refs table share).Within R := by
  have keep (kind : FieldKind) (records : List Bytes) : (keepRecords kind records).Within R := by
    apply step
    intro b
    exact ⟨BlockState.pointers_setStore .., .inl (by cases kind <;> rfl)⟩
  have field (kind : FieldKind) (linkage : Linkage) :
      (loadField refs linkage share kind).Within R := by
    unfold loadField
    cases named : refs.file? (.ofKind kind) with
    | none => exact refl
    | some id =>
      unfold loadRecords
      cases linkage with
      | type1 =>
        refine .bind trans refl fun b => .bind trans (fun d => ?_) (keep kind)
        exact ask d _ (Reference.Block.consults_readSubset named b.numbers)
      | type2 position =>
        refine .bind trans (pointers share) fun linked => ?_
        cases linked with
        | false => exact refl
        | true =>
          exact .bind trans (fun d => ask d _ (Reference.Block.consults_readAll named)) (keep kind)
  have complete (kind : FieldKind) : (completeField refs table share kind).Within R := by
    refine .bind trans refl fun b => ?_
    split
    · exact refl
    · exact field kind _
  have entries : (loadEntries refs).Within R :=
    within_loadEntries refl trans ask fun es => step _ fun b => ⟨rfl, .inr ⟨es.length, rfl⟩⟩
  refine .bind trans entries fun _ => .bind trans (complete .email) fun _ =>
    .bind trans (complete .anr) fun _ => step _ fun b => ?_
  rw [BlockState.join_eq, BlockState.pointers_joinKind, BlockState.pointers_joinKind,
    BlockState.numbers_joinKind, BlockState.numbers_joinKind]
  exact ⟨rfl, .inl rfl⟩

theorem reads_load (refs : Reference.Block) (table : Reference.Table) (share : Bool) (d : Desk) :
    d.card.Reads ((load refs table share).perform d).2.card := by
  have ask (d : Desk) (request : Request) (h : refs.Consults request) :
      d.card.Reads (d.ask request).2.card := ask_reads (.inl h.ne_write)
  refine within_load (R := fun d d' => d.card.Reads d'.card) (fun _ => .refl _)
    (fun _ _ _ => .trans) ask (fun share => ?_) (fun f _ d => .refl _) share d
  refine .bind (fun _ _ _ => .trans) (fun _ => .refl _) fun b => ?_
  split
  · exact fun _ => .refl _
  · cases named : refs.file? .iap with
    | none => exact fun _ => .refl _
    | some id =>
      exact .bind (fun _ _ _ => .trans)
        (fun d => ask d _ (Reference.Block.consults_readSubset named b.numbers)) fun _ _ => .refl _

end Desk

end UsimPhonebook
