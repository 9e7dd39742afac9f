import Mathlib.Algebra.GroupWithZero.Nat
import UsimPhonebook.Proofs.Session.Endurance
import UsimPhonebook.Proofs.Session.Lookup
import UsimPhonebook.Report

/-! # What the report of free slots tells

For each kind the report lists how many slots of each block are free, and gives a total that is
missing where there is no bound. The figure of a block counts the flags of its store that are not
set, and the figures add up to all such flags of the session (`Session.sum_figures`).

The total goes through a number that stands for no bound. As many slots can be free, and then they
are reported as if there were no bound; in every other state the report tells the two apart
(`Session.report_tells_iff`).
-/

namespace UsimPhonebook

/-- The figures of a kind. -/
def CapacityReport.of (r : CapacityReport) : FieldKind → KindCapacity
  | .email => r.email
  | .anr => r.anr

/-- The total is missing exactly under positional linkage, and otherwise it is the sum of the
figures. -/
structure KindCapacity.Tells (c : KindCapacity) : Prop where
  bounded : c.total = none ↔ c.linkage = .type1
  total : c.linkage ≠ .type1 → c.total = some c.blocks.sum

/-- The flags of the records of a kind that are not set; none where no records are held. -/
def BlockState.clearFlags (b : BlockState) (kind : FieldKind) : Nat :=
  match b.store kind with
  | some store => store.flags.count false
  | none => 0

/-! ## Counting flags -/

theorem sum_clearFlags (blocks : List BlockState) (kind : FieldKind) :
    (blocks.map (·.clearFlags kind)).sum =
      ((blocks.filterMap (·.store kind)).flatMap (·.flags)).count false := by
  induction blocks with
  | nil => rfl
  | cons b rest ih =>
    rw [List.map_cons, List.sum_cons, ih, List.filterMap_cons]
    unfold BlockState.clearFlags
    cases b.store kind with
    | none => exact Nat.zero_add _
    | some store =>
      dsimp only
      rw [List.flatMap_cons, List.count_append]

theorem foldr_freeCount (stores : List FieldStore) :
    stores.foldr (fun store count => store.freeCount + count) 0 =
      (stores.flatMap (·.flags)).count false := by
  induction stores with
  | nil => rfl
  | cons store rest ih =>
    rw [List.foldr_cons, ih, List.flatMap_cons, List.count_append, store.freeCount_eq]

namespace Session

variable {s : Session} {table : Reference.Table} {kind : FieldKind}

@[simp] theorem capacityReport_of (s : Session) (kind : FieldKind) :
    s.capacityReport.of kind = s.kindCapacity kind := by cases kind <;> rfl

theorem freeInBlock_of_block {i : Nat} {b : BlockState} (here : s.blocks[i]? = some b)
    (kind : FieldKind) : s.freeInBlock kind i = b.clearFlags kind := by
  unfold freeInBlock BlockState.clearFlags
  rw [here, Option.bind_some]
  cases b.store kind with
  | none => rfl
  | some store => exact store.freeCount_eq

theorem figures_eq (shaped : s.Shaped) (held : s.table = some table) (kind : FieldKind) :
    (s.kindCapacity kind).blocks = s.blocks.map (·.clearFlags kind) := by
  have length : s.blocks.length = table.blocks.length := by
    rw [shaped, held]
    rfl
  unfold kindCapacity
  rw [held]
  dsimp only
  rw [← length]
  apply List.ext_getElem
  · rw [List.length_map, List.length_map, List.length_range]
  · intro i _ inside
    rw [List.length_map] at inside
    rw [List.getElem_map, List.getElem_map, List.getElem_range]
    exact freeInBlock_of_block (List.getElem?_eq_getElem inside) kind

theorem sum_figures (shaped : s.Shaped) (held : s.table = some table) (kind : FieldKind) :
    (s.kindCapacity kind).blocks.sum =
      ((s.blocks.filterMap (·.store kind)).flatMap (·.flags)).count false := by
  rw [figures_eq shaped held, sum_clearFlags]

theorem freeCount_of_type2 (shaped : s.Shaped) (held : s.table = some table) {place : Nat}
    (pointed : s.linkage kind = .type2 place) :
    s.freeCount kind = (s.kindCapacity kind).blocks.sum :=
  calc s.freeCount kind
      = (s.blocks.filterMap (·.store kind)).foldr (·.freeCount + ·) 0 := by
        unfold freeCount
        rw [pointed]
    _ = ((s.blocks.filterMap (·.store kind)).flatMap (·.flags)).count false := foldr_freeCount _
    _ = (s.kindCapacity kind).blocks.sum := (sum_figures shaped held kind).symm

/-! ## The total -/

/-- The total is missing under positional linkage, and where the figures add up to the number that
stands for no bound. -/
theorem total_eq (shaped : s.Shaped) (held : s.table = some table) (kind : FieldKind) :
    (s.kindCapacity kind).total =
      if s.linkage kind = .type1 ∨ (s.kindCapacity kind).blocks.sum = unbounded then none
      else some (s.kindCapacity kind).blocks.sum := by
  cases linkage : s.linkage kind with
  | type1 =>
    have all : s.freeCount kind = unbounded := by
      unfold freeCount
      rw [linkage]
    rw [if_pos (.inl rfl)]
    exact if_pos all
  | type2 place =>
    rw [← freeCount_of_type2 shaped held linkage]
    simp only [reduceCtorEq, false_or]
    rfl

/-- The total tells no bound from a bound unless the free slots are as many as stand for no
bound. -/
theorem tells_iff (shaped : s.Shaped) (held : s.table = some table) (kind : FieldKind) :
    (s.kindCapacity kind).Tells ↔
      s.linkage kind = .type1 ∨ (s.kindCapacity kind).blocks.sum ≠ unbounded := by
  have total := total_eq shaped held kind
  by_cases positional : s.linkage kind = .type1
  · rw [if_pos (.inl positional)] at total
    exact ⟨fun _ => .inl positional, fun _ => ⟨⟨fun _ => positional, fun _ => total⟩,
      fun bounded => absurd positional bounded⟩⟩
  by_cases clash : (s.kindCapacity kind).blocks.sum = unbounded
  · rw [if_pos (.inr clash)] at total
    refine ⟨fun tells => absurd (tells.bounded.1 total) positional, ?_⟩
    rintro (same | apart)
    · exact absurd same positional
    · exact absurd clash apart
  · rw [if_neg (not_or.2 ⟨positional, clash⟩)] at total
    refine ⟨fun _ => .inr clash, fun _ => ⟨⟨fun missing => ?_, fun same => ?_⟩, fun _ => total⟩⟩
    · rw [total] at missing
      cases missing
    · exact absurd same positional

/-- Whatever commands a session was given, and whatever happened to the card between them: once
there is a reference table, the report has its linkage and one figure for each of its blocks, which
counts the clear flags of the store that is held of the block. Together they count the clear flags
of all stores of the kind, and this is the total if there is one: it is missing under positional
linkage, and where as many slots are free as stand for no bound. So the report tells no bound from a
bound, unless so many are free under index-pointer linkage. -/
theorem report_tells_iff (card : Card) (options : Options) (incidents : List Incident)
    (table : Reference.Table) (kind : FieldKind) :
    let s := (start card options).despite incidents
    let report := s.capacityReport.of kind
    s.table = some table →
    report.linkage = table.linkage kind ∧ report.blocks.length = table.blocks.length ∧
    report.blocks = s.blocks.map (·.clearFlags kind) ∧
    report.blocks.sum =
      ((s.blocks.filterMap (·.store kind)).flatMap (·.flags)).count false ∧
    report.total = (if table.linkage kind = .type1 ∨ report.blocks.sum = unbounded then none
      else some report.blocks.sum) ∧
    (report.Tells ↔ table.linkage kind = .type1 ∨ report.blocks.sum ≠ unbounded) := by
  intro s report held
  have shaped : s.Shaped := shaped_despite card options incidents
  have same : report = s.kindCapacity kind := capacityReport_of s kind
  have linkage : s.linkage kind = table.linkage kind := linkage_of_table held kind
  rw [same, ← linkage]
  refine ⟨rfl, ?_, figures_eq shaped held kind, sum_figures shaped held kind,
    total_eq shaped held kind, tells_iff shaped held kind⟩
  rw [figures_eq shaped held, List.length_map, shaped, held]
  rfl

/-- One email record of the two is in use, and the second block has none. -/
theorem report_tells_looseCard :
    let s := (start looseCard {}).despite [.command .load]
    s.capacityReport.email.Tells ∧ s.capacityReport.email = ⟨.type2 0, some 1, [1, 0]⟩ := by
  intro s
  obtain ⟨table, held⟩ : ∃ table, s.table = some table :=
    Option.isSome_iff_exists.1 (by decide +kernel)
  have report : s.capacityReport.email = ⟨.type2 0, some 1, [1, 0]⟩ := by decide +kernel
  obtain ⟨-, -, -, -, -, tells⟩ :=
    report_tells_iff looseCard {} [.command .load] table .email held
  have figures : s.capacityReport.email.blocks.sum = 1 := by rw [report]; rfl
  refine ⟨tells.2 (.inr ?_), report⟩
  show s.capacityReport.email.blocks.sum ≠ 65535
  omega

/-! ## As many free slots as stand for no bound -/

/-- Where no entry of a loaded block is linked to a value, every slot is free. -/
theorem Loaded.clearFlags_of_unlinked (h : s.Loaded) {i : Nat} {refs : Reference.Block}
    {b : BlockState} {file : RecordFile} {place : Nat} (held : s.table = some table)
    (named : table.block? i = some refs) (here : s.blocks[i]? = some b)
    (pointed : table.linkage kind = .type2 place)
    (readable : (refs.on s.card.files).Readable (table.linkage kind) kind)
    (adn : (refs.on s.card.files .adn).isSome)
    (found : refs.on s.card.files (.ofKind kind) = some file)
    (unlinked : ∀ offset < (refs.on s.card.files).addressCount,
      (refs.on s.card.files).value? (table.linkage kind) kind offset = none) :
    b.clearFlags kind = file.records.length := by
  obtain ⟨store, stored⟩ :=
    Option.isSome_iff_exists.1 ((h.store_iff held named here kind).2 ⟨adn, readable⟩)
  have records := (h.synced.agreed table i refs b held named here).mirrors.records_eq stored found
  rw [pointed] at records
  dsimp only at records
  unfold BlockState.clearFlags
  rw [stored, ← records, FieldStore.length_records, ← FieldStore.length_flags]
  dsimp only
  rw [List.count_eq_length]
  intro flag member
  obtain ⟨slot, there, rfl⟩ := List.mem_map.1 member
  obtain ⟨index, there⟩ := List.mem_iff_getElem?.1 there
  refine (Bool.eq_false_iff.2 fun used => ?_).symm
  obtain ⟨offset, text, inside, value⟩ := (h.used_iff held named here stored there).1 used
  rw [unlinked offset inside] at value
  cases value

/-- A block with an address file, one of index pointers and one of emails, to which they lead. -/
def roomyReference : Bytes :=
  [0xA8, 0x08, 0xC0, 0x02, 0x4F, 0x3A, 0xC1, 0x02, 0x4F, 0x25, 0xA9, 0x04, 0xCA, 0x02, 0x4F, 0x50]

/-- An entry without a value, and this many blank email records. -/
def roomyCard (n : Nat) : Card where
  files := ⟨[
    (.ofNat 0x4F25, ⟨1, [[0x00]]⟩),
    (.ofNat 0x4F30, ⟨16, [roomyReference]⟩),
    (.ofNat 0x4F3A, ⟨14, [Bytes.blank 14]⟩),
    (.ofNat 0x4F50, .unused 3 n)]⟩

theorem on_roomyCard (n : Nat) {refs : Reference.Block}
    (named : (Reference.Table.parse [roomyReference]).block? 0 = some refs) :
    refs.on (roomyCard n).files .adn = some ⟨14, [Bytes.blank 14]⟩ ∧
      refs.on (roomyCard n).files .iap = some ⟨1, [[0x00]]⟩ ∧
      refs.on (roomyCard n).files .email = some (.unused 3 n) := by
  have on (tag : FileTag) (id : FileId) {file : RecordFile}
      (tagged : ((Reference.Table.parse [roomyReference]).block? 0).bind (·.file? tag) = some id)
      (found : (roomyCard n).files.find? id = some file) :
      refs.on (roomyCard n).files tag = some file := by
    rw [named] at tagged
    unfold Reference.Block.on
    rw [show refs.file? tag = some id from tagged]
    exact found
  exact ⟨on .adn (.ofNat 0x4F3A) (by decide +kernel) rfl,
    on .iap (.ofNat 0x4F25) (by decide +kernel) rfl,
    on .email (.ofNat 0x4F50) (by decide +kernel) rfl⟩

/-- After a load all of them are free. -/
theorem figures_roomyCard (n : Nat) :
    let s := (start (roomyCard n) {}).despite [.command .load]
    (∃ table, s.table = some table ∧ table.linkage .email = .type2 0) ∧
      s.blocks.map (·.clearFlags .email) = [n] := by
  intro s
  let table := Reference.Table.parse [roomyReference]
  have one : table.blocks.length = 1 := Reference.Table.length_blocks_parse _
  have pointed : table.linkage .email = .type2 0 := by decide +kernel
  have calm : (roomyCard n).faults = [] := rfl
  have full : s.Loaded := (synced_start calm {}).loaded_load
  have continues := continues_load (start (roomyCard n) {})
  have files : s.card.files = (roomyCard n).files := continues.reads.files
  have options : s.options = {} := continues.options
  have held : s.table = some table := by
    refine full.table table ?_ (List.ne_nil_of_length_pos (by omega))
    rw [files, options]
    rfl
  have length : s.blocks.length = 1 := by
    rw [full.synced.rooted.blocks, held]
    exact one
  obtain ⟨b, here⟩ : ∃ b, s.blocks = [b] := List.length_eq_one_iff.1 length
  obtain ⟨refs, named⟩ : ∃ refs, table.block? 0 = some refs :=
    ⟨_, List.getElem?_eq_getElem (by omega)⟩
  obtain ⟨adn, iap, email⟩ := on_roomyCard n named
  rw [← files] at adn iap email
  have free : b.clearFlags .email = (RecordFile.unused 3 n).records.length := by
    refine full.clearFlags_of_unlinked held named (by rw [here]; rfl) pointed ?_ (by rw [adn]; rfl)
      email fun offset inside => ?_
    · exact BlockFiles.readable_of_record 0 (Option.isSome_of_eq_some email)
        fun _ _ => ⟨_, _, iap, rfl⟩
    · -- the pointer byte of the only entry is zero
      unfold BlockFiles.addressCount at inside
      rw [adn] at inside
      obtain rfl : offset = 0 := Nat.lt_one_iff.1 inside
      unfold BlockFiles.value? BlockFiles.linkedSlot? BlockFiles.slot?
      rw [pointed, iap]
      rfl
  refine ⟨⟨table, held, pointed⟩, ?_⟩
  rw [here, List.map_cons, free]
  simp [RecordFile.unused]

/-- With 65535 free email records there is a bound, and the report has no total. -/
theorem total_lost_roomyCard :
    let s := (start (roomyCard 65535) {}).despite [.command .load]
    let report := s.capacityReport.email
    s.table.isSome ∧ report.linkage = .type2 0 ∧ report.blocks = [65535] ∧ report.total = none ∧
      ¬ report.Tells := by
  intro s report
  obtain ⟨⟨table, held, pointed⟩, flags⟩ := figures_roomyCard 65535
  have shaped : s.Shaped := shaped_despite _ _ _
  have linkage : s.linkage .email = .type2 0 := (linkage_of_table held .email).trans pointed
  have figures : (s.kindCapacity .email).blocks = [65535] := (figures_eq shaped held _).trans flags
  have clash : (s.kindCapacity .email).blocks.sum = unbounded := by
    rw [figures]
    rfl
  refine ⟨by rw [held]; rfl, linkage, figures, ?_, fun tells => ?_⟩
  · exact (total_eq shaped held .email).trans (if_pos (.inr clash))
  · rcases (tells_iff shaped held .email).1 tells with positional | apart
    · rw [linkage] at positional
      cases positional
    · exact apart clash

end Session

end UsimPhonebook
