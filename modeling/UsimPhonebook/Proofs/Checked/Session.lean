import UsimPhonebook.Proofs.Checked.Block
import UsimPhonebook.Proofs.Checked.Tlv
import UsimPhonebook.Proofs.Checked.Work
import UsimPhonebook.Proofs.Session.Linking

/-! # No access of a session fails

Carried out by index, each command comes to the end that `Session.obey` gives it. What keeps the
accesses within bounds is found where they are made:

* A block that a command has found stays in its place, however often it is taken anew (`DoesAt`).
* An edit has been checked to go to a slot from 1 on, and to a pointer byte within the record as the
  card reports it; the record that is held may be of any length (`doesAt_rewritePointer`).
* No entry names the extension record 0 (`extension_ne_zero`).

`after_eq` goes through a history with this, and `no_access_fails` adds what is asked of the session
afterwards and what any bytes are read as.
-/

namespace UsimPhonebook.Checked

open Work (Does DoesAt)

variable {i : Nat} {s : Session}

/-! ## Sizes -/

/-- The product that is taken of the geometry of a file is its size in bytes. -/
theorem mul?_eq_total {g : Geometry} (small : g.recordLen * g.count < wordLimit) :
    mul? g.recordLen g.count = some g.total := by
  unfold Geometry.total
  rw [mul?_of_lt small, Nat.mod_eq_of_lt small]

theorem doesAt_sizeOf (file : FileId) : DoesAt i (sizeOf file) (Desk.sizeOf file) := by
  have asked : DoesAt i (.ask (.size file)) (Desk.sizeOf file) := .ask fun _ => rfl
  refine Work.doesAt_iff.2 fun s b here sized => ?_
  obtain ⟨done, sized'⟩ := Work.doesAt_iff.1 asked s b here sized
  unfold sizeOf
  rw [Work.perform_bind, done]
  rcases performed : (Desk.sizeOf file).perform ⟨s.channel, b⟩ with ⟨e | size, d⟩
  · rw [performed] at sized'
    exact ⟨rfl, sized'⟩
  · rw [performed] at sized'
    obtain ⟨found, there, rfl⟩ := Desk.size_of_ask (congrArg Prod.fst performed)
    dsimp only
    rw [Work.perform_bind, mul?_eq_total (sized file found there)]
    exact ⟨rfl, sized'⟩

/-! ## Loading -/

theorem decodeEntries?_eq (file : FileId) (records : List Bytes) :
    decodeEntries? file records = some (Desk.decodeEntries file records) :=
  mapM_eq_some_map fun item _ => decodeEntry?_eq file (item.2 + 1) item.1

theorem extension_ne_zero {file : FileId} {records : List Bytes} {e : Entry}
    (h : e ∈ Desk.decodeEntries file records) : e.extension ≠ some 0x00 := by
  obtain ⟨_, _, rfl⟩ := List.mem_map.1 h
  exact extension_decode_ne_zero _ _ _

theorem doesAt_extendEntries (refs : Reference.Block) {entries : List Entry}
    (named : ∀ e ∈ entries, e.extension ≠ some 0x00) :
    DoesAt i (extendEntries refs entries) (Desk.extendEntries refs entries) := by
  unfold extendEntries Desk.extendEntries
  cases Desk.extensionFile? refs entries with
  | none => exact .pure _
  | some file =>
    refine .bind (.attempt (.ask fun _ => rfl)) fun records => ?_
    cases records with
    | none => exact .pure _
    | some records =>
      exact .demand (mapM_eq_some_map fun e member => extend?_eq records (named e member))

theorem doesAt_loadEntries (refs : Reference.Block) :
    DoesAt i (loadEntries i refs) (Desk.loadEntries refs) := by
  unfold loadEntries Desk.loadEntries
  refine .lift_bind fun file _ => .bind (.ask fun _ => rfl) fun records => ?_
  refine .demand_bind (decodeEntries?_eq file records) ?_
  exact .bind (doesAt_extendEntries refs fun _ => extension_ne_zero) fun entries =>
    .change fun _ => rfl

theorem doesAt_loadPointers (refs : Reference.Block) (share : Bool) :
    DoesAt i (loadPointers i refs share) (Desk.loadPointers refs share) := by
  unfold loadPointers Desk.loadPointers
  refine .look fun s b here => ?_
  split
  · exact DoesAt.pure _ s b here
  · cases refs.file? .iap with
    | none => exact DoesAt.pure _ s b here
    | some file =>
      refine Work.look_again here (DoesAt.bind (.ask fun _ => rfl) (fun records => ?_) s b here)
      exact .bind (.change fun _ => rfl) fun _ => .pure _

theorem doesAt_keepRecords (kind : FieldKind) (records : List Bytes) :
    DoesAt i (keepRecords i kind records) (Desk.keepRecords kind records) := by
  refine .change fun b => ?_
  rw [Shelf.new_eq, Shelf.store?_ofStore]
  rfl

theorem doesAt_loadRecords (refs : Reference.Block) (linkage : Linkage) (share : Bool)
    (kind : FieldKind) (file : FileId) :
    DoesAt i (loadRecords i refs linkage share kind file)
      (Desk.loadRecords refs linkage share kind file) := by
  cases linkage with
  | type1 =>
    refine .bind .blockAt fun b => .bind (.ask fun _ => rfl) fun records => ?_
    exact doesAt_keepRecords kind records
  | type2 position =>
    refine .bind (doesAt_loadPointers refs share) fun linked => ?_
    cases linked with
    | false => exact .pure _
    | true =>
      exact .bind (.ask fun _ => rfl) fun records => doesAt_keepRecords kind records

theorem doesAt_loadField (refs : Reference.Block) (linkage : Linkage) (share : Bool)
    (kind : FieldKind) :
    DoesAt i (loadField i refs linkage share kind) (Desk.loadField refs linkage share kind) := by
  unfold loadField Desk.loadField
  cases refs.file? (.ofKind kind) with
  | none => exact .pure _
  | some file => exact doesAt_loadRecords refs linkage share kind file

theorem doesAt_completeField (refs : Reference.Block) (table : Reference.Table) (share : Bool)
    (kind : FieldKind) : DoesAt i (completeField i refs table share kind)
      (Desk.completeField refs table share kind) := by
  refine .bind .blockAt fun b => ?_
  split
  · exact .pure _
  · exact .ignoringFailure (doesAt_loadField refs _ share kind)

theorem doesAt_loadAt (refs : Reference.Block) (table : Reference.Table) (share : Bool) :
    DoesAt i (loadAt i refs table share) (Desk.load refs table share) :=
  .bind (doesAt_loadEntries refs) fun _ => .bind (doesAt_completeField refs table share _) fun _ =>
    .bind (doesAt_completeField refs table share _) fun _ => .change (join?_eq table)

/-! ## Editing -/

/-- A record number is written over a slot from 1 on. -/
theorem doesAt_writeSlot (file : FileId) (kind : FieldKind) {slot : Nat} (first : 1 ≤ slot)
    (record : Bytes) :
    DoesAt i (writeSlot i file kind slot record) (Desk.writeSlot file kind slot record) :=
  .bind (.ask fun _ => rfl) fun _ =>
    .bind (.change (putRecord?_eq kind first record)) fun _ => .note _

theorem doesAt_writePointer (file : FileId) (offset : Nat) (record : Bytes) :
    DoesAt i (writePointer i file offset record) (Desk.writePointer file offset record) :=
  .bind (.ask fun _ => rfl) fun _ => .bind (.change fun _ => rfl) fun _ => .note _

theorem recordByte_of_lt {number : Nat} (h : number < 256) :
    recordByte number = .ok (UInt8.ofNat number) := if_pos h

/-- Whatever record is held, the one that is written reaches beyond the pointer byte. -/
theorem doesAt_rewritePointer (refs : Reference.Block) (offset position : Nat) {pointer : Nat}
    (byte : pointer < 256) : DoesAt i (rewritePointer i refs offset position pointer)
      (Desk.rewritePointer refs offset position (UInt8.ofNat pointer)) := by
  unfold rewritePointer Desk.rewritePointer
  refine .lift_bind fun file _ => .bind (doesAt_sizeOf file) fun size => ?_
  refine .lift_bind fun _ _ => .lift_bind fun _ within => .bind .blockAt fun b => ?_
  -- the check is about the length that the card reports, to which the record is cut or filled
  have beyond : position < (Bytes.fitTo size.recordLen ((b.pointer? offset).getD [])).length := by
    rw [Bytes.length_fitTo]
    exact Desk.checkPosition_eq_ok_iff.1 within
  refine .passed (recordByte_of_lt byte) (.demand_bind (set?_of_lt beyond _) ?_)
  exact doesAt_writePointer file offset _

theorem doesAt_relink (refs : Reference.Block) (linkage : Linkage) (offset : Nat) {slot : Nat}
    (byte : linkage.isType2 = true → slot < 256) (old new : Text) :
    DoesAt i (relink i refs linkage offset slot old new)
      (Desk.relink refs linkage offset slot old new) := by
  cases linkage with
  | type1 => exact .pure _
  | type2 position =>
    unfold relink Desk.relink
    dsimp only
    split
    · exact .pure _
    · cases new.isEmpty with
      | true => exact doesAt_rewritePointer refs offset position (show 0 < 256 by decide)
      | false => exact doesAt_rewritePointer refs offset position (byte rfl)

/-- A slot that is picked by pointers has a number that fits into a pointer byte. -/
theorem lt_of_resolveSlot {b : BlockState} {kind : FieldKind} {linkage : Linkage}
    {offset slot : Nat} {old : Text} (h : b.resolveSlot kind linkage offset old = .ok slot)
    (pointed : linkage.isType2 = true) : slot < 256 := by
  cases linkage with
  | type1 => cases pointed
  | type2 position =>
    have low : maxPointedSlot < 255 := by decide
    -- it is the slot that the pointer names, or the first free one up to the last that it could
    obtain ⟨held, -, named | ⟨-, -, store, index, -, -, small, rfl⟩⟩ :=
      BlockState.resolveSlot_cases h
    · obtain ⟨-, -, -, -, small⟩ := pointedSlot?_eq_some_iff.1 named
      omega
    · omega

theorem perform_encodeValue (kind : FieldKind) (linkage : Linkage) (offset : Nat) (size : Geometry)
    (value : Text) (s : Session) : (encodeValue kind linkage offset size value).perform s =
      some ((Desk.encodeField kind linkage offset size value).map fun record =>
        (record, kind.decode record), s) := by
  unfold encodeValue Desk.encodeField
  rw [Work.perform_bind, Work.perform_lift]
  cases Desk.backLink linkage offset with
  | error e => rfl
  | ok link =>
    dsimp only
    rw [encodeField?_eq, Work.perform_bind, Work.perform_demand_some]
    dsimp only
    rw [Work.perform_bind, Work.perform_lift]
    show _ = some ((kind.encode size.recordLen value link).map _, s)
    cases kind.encode size.recordLen value link with
    | error e => rfl
    | ok record =>
      dsimp only
      rw [decodeField?_eq]
      rfl

/-- The value that reads back from the record that is written is worked out beforehand. -/
theorem doesAt_encodeValue_bind {β : Type} {kind : FieldKind} {linkage : Linkage} {offset : Nat}
    {size : Geometry} {value : Text} {f : Bytes × Text → Work β} {g : Bytes → Action Desk β}
    (rest : ∀ record, DoesAt i (f (record, kind.decode record)) (g record)) :
    DoesAt i (encodeValue kind linkage offset size value >>= f)
      (.lift (Desk.encodeField kind linkage offset size value) >>= g) := by
  refine Work.doesAt_iff.2 fun s b here sized => ?_
  rw [Work.perform_bind, perform_encodeValue, Action.perform_bind, Action.perform_lift]
  cases Desk.encodeField kind linkage offset size value with
  | error e => exact ⟨by rw [Session.withDesk_eq_self here]; rfl, sized⟩
  | ok record => exact Work.doesAt_iff.1 (rest record) s b here sized

/-- The check of the slot sees to it that there is one before it, and the way in which it was picked
that it fits into a pointer byte. -/
theorem doesAt_editAt (refs : Reference.Block) (linkage : Linkage) (kind : FieldKind) (offset : Nat)
    (old new : Text) : DoesAt i (editAt i refs linkage kind offset old new)
      (Desk.edit refs linkage kind offset old new) := by
  unfold editAt Desk.edit
  refine .lift_bind fun file _ => .bind .blockAt fun b => .lift_bind fun slot picked => ?_
  refine .bind (doesAt_sizeOf file) fun size => .lift_bind fun _ checked => ?_
  obtain ⟨first, -⟩ := Desk.checkSlot_eq_ok_iff.1 checked
  refine doesAt_encodeValue_bind fun record => ?_
  refine .bind (doesAt_writeSlot file kind first record) fun _ => ?_
  exact .bind (doesAt_relink refs linkage offset (lt_of_resolveSlot picked) old new) fun _ =>
    .change fun _ => rfl

/-! ## Commands -/

theorem does_readTable (s : Session) : readTable.Does Session.readTable s := by
  intro sized
  have sized' := Channel.measurable_ask sized (.readAll s.options.referenceFile)
  unfold readTable Session.readTable
  rw [Work.perform_bind, Work.perform_get]
  dsimp only
  rw [Work.perform_bind, Work.perform_ask, Action.perform_of]
  rcases asked : s.channel.ask (.readAll s.options.referenceFile) with ⟨e | records, channel⟩
  · rw [asked] at sized'
    exact ⟨rfl, sized'⟩
  · rw [asked] at sized'
    cases records with
    | nil => exact ⟨rfl, sized'⟩
    | cons record rest =>
      dsimp only
      rw [if_neg (List.cons_ne_nil _ _), parse?_eq]
      exact ⟨rfl, sized'⟩

theorem does_loadTable (s : Session) : loadTable.Does Session.loadTable s := by
  refine .get_bind ?_
  split
  · exact .throw _
  · cases s.table with
    | some table => exact .pure _
    | none => exact does_readTable s

theorem does_loadBlock (i : Nat) (s : Session) : (loadBlock i).Does (Session.loadBlock i) s := by
  refine .bind (does_loadTable s) fun table s' _ => .get_bind ?_
  cases here : s'.blocks[i]? with
  | none => exact .throw _
  | some b =>
    dsimp only
    split
    · exact .pure _
    · exact .lift_bind fun refs _ => doesAt_loadAt refs table _ s' b here

theorem does_loadBlocks (blocks : List Nat) (s : Session) :
    (loadBlocks blocks).Does (Session.loadBlocks blocks) s := by
  induction blocks generalizing s with
  | nil => exact .pure _
  | cons i rest ih => exact .bind (.ignoringFailure (does_loadBlock i s)) fun _ s' _ => ih s'

theorem does_load (s : Session) : load.Does Session.load s :=
  .bind (does_loadTable s) fun _ s' _ => .bind (does_loadBlocks _ s') fun _ _ _ =>
    .get_bind (.pure _)

/-- The block of a position is there, and stays so until the edit is done. -/
theorem does_update (position : Nat) (old new : Text) (kind : FieldKind) (s : Session) :
    (update position old new kind).Does (Session.update position old new kind) s := by
  refine .get_bind (.demand_bind (locate?_eq s position) ?_)
  cases found : s.locate? position with
  | none => exact .throw _
  | some place =>
    obtain ⟨b, here⟩ := block_of_locate? found
    refine .lift_bind fun table _ => .lift_bind fun refs _ => ?_
    exact doesAt_editAt refs _ kind _ old new s b here

theorem outcomeOf_eq {α : Type} {w : Work α} {a : Action Session α} (sized : s.card.Measurable)
    (does : w.Does a s) : obey.outcomeOf (w.perform s) =
      some (Session.obey.refusal (a.perform s).1, (a.perform s).2) ∧
      (a.perform s).2.card.Measurable := by
  obtain ⟨done, sized⟩ := does sized
  refine ⟨?_, sized⟩
  rw [done]
  rfl

theorem obey_eq (sized : s.card.Measurable) (command : Command) :
    obey s command = some (s.obey command) ∧ (s.obey command).2.card.Measurable := by
  cases command with
  | load => exact outcomeOf_eq sized (does_load s)
  | loadBlock block => exact outcomeOf_eq sized (does_loadBlock block s)
  | invalidate => exact ⟨rfl, sized⟩
  | reset => exact ⟨rfl, sized⟩
  | update position old new kind => exact outcomeOf_eq sized (does_update position old new kind s)

/-! ## Histories -/

theorem meet_eq (sized : s.card.Measurable) (event : Event) :
    meet s event = some (s.meet event) ∧ (s.meet event).card.Measurable := by
  cases event with
  | command command =>
    obtain ⟨obeyed, sized⟩ := obey_eq sized command
    refine ⟨?_, sized⟩
    show (obey s command).map (·.2) = _
    rw [obeyed]
    rfl
  | fault op file => exact ⟨rfl, (Card.measurable_failNext op file).2 sized⟩

/-- By induction on the history: whatever happens, the files stay measurable. -/
theorem after_eq (sized : s.card.Measurable) (events : List Event) :
    after s events = some (s.after events) := by
  induction events generalizing s with
  | nil => rfl
  | cons event rest ih =>
    obtain ⟨met, sized⟩ := meet_eq sized event
    unfold after at ih ⊢
    rw [List.foldlM_cons, met]
    exact ih sized

/-! ## No access fails -/

/-- What is asked about the entries of a session is answered. The other reports count entries and
slots, and take none by its place. -/
structure Answers (s : Session) : Prop where
  locate : ∀ position, locate? s position = some (s.locate? position)
  entry : ∀ position, entryAt? s position = some (s.entryAt? position)
  report : ∀ position, entryReport? s position = some (s.entryReport? position)
  list : ∀ nonEmpty, listReport? s nonEmpty = some (s.listReport nonEmpty)
  free : ∀ kind position, freeForEntry? s kind position = some (s.freeForEntry kind position)

theorem answers (s : Session) : Answers s :=
  ⟨locate?_eq s, entryAt?_eq s, entryReport?_eq s, listReport?_eq s, freeForEntry?_eq s⟩

/-- Bytes can be read, whatever they are taken for. -/
structure Readable (bytes : Bytes) : Prop where
  objects : objects? bytes = some (Tlv.objects bytes)
  next : ∀ calls, (({ buffer := bytes } : Cursor).after calls).next.1 =
    ((Tlv.Reader.start bytes).after calls).next.1
  remaining : ∀ calls, (({ buffer := bytes } : Cursor).after calls).remaining? =
    some ((Tlv.Reader.start bytes).after calls).remaining
  text : decodeText? bytes = some (Gsm.decode bytes)
  alpha : decodeAlpha? bytes = some (Alpha.decode bytes)
  number : ∀ position, numberField bytes position = Dialling.numberField bytes position
  entry : ∀ file number, decodeEntry? file number bytes = some (Entry.decode file number bytes)
  field : ∀ kind : FieldKind, decodeField? kind bytes = some (kind.decode bytes)

theorem readable (bytes : Bytes) : Readable bytes where
  objects := objects?_eq bytes
  next calls := ((Cursor.at_start bytes).after calls).next.1
  remaining calls := ((Cursor.at_start bytes).after calls).remaining?_eq
  text := decodeText?_eq bytes
  alpha := decodeAlpha?_eq bytes
  number := numberField_eq bytes
  entry file number := decodeEntry?_eq file number bytes
  field kind := decodeField?_eq kind bytes

/-- Whatever is on the card and whatever is asked of the session, each access is within its list and
no difference is below zero: the session is where it would be if no access could fail, and answers
what it would answer. So it is with any bytes that are read for themselves. -/
theorem no_access_fails :
    (∀ card options events, card.Measurable →
      after (.start card options) events = some ((Session.start card options).after events) ∧
        Answers ((Session.start card options).after events)) ∧
      (∀ bytes, Readable bytes) ∧ ∀ records, parse? records = some (.parse records) :=
  ⟨fun card options events sized =>
    ⟨after_eq (s := .start card options) sized events, answers _⟩, readable, parse?_eq⟩

/-- Hardly a record of this card has the length of its file, and the reference file cannot be read
at first. -/
def raggedCard : Card where
  files := .ofList [
    (.ofNat 0x4F11, ⟨17, [Bytes.blank 16]⟩),
    (.ofNat 0x4F25, ⟨2, [[0x01], [0x00, 0x00, 0x00]]⟩),
    (.ofNat 0x4F30, ⟨20, [[0xA8, 0x0C, 0xC0, 0x02, 0x4F, 0x3A, 0xC1, 0x02, 0x4F, 0x25,
      0xC4, 0x02, 0x4F, 0x11, 0xA9, 0x04, 0xCA, 0x02, 0x4F, 0x50, 0xAA, 0x04, 0xC2, 0x02, 0x4F,
      0x4A]]⟩),
    (.ofNat 0x4F3A, ⟨14, [[0x7A], [0x62, 0x02, 0x81, 0x21] ++ Bytes.blank 10 ++ [0x01]]⟩),
    (.ofNat 0x4F4A, ⟨13, [[0x02, 0x01, 0x43]]⟩),
    (.ofNat 0x4F50, ⟨6, [[0x61, 0xFF, 0xFF], Bytes.blank 8]⟩)]
  faults := [(.readAll, .ofNat 0x4F30)]

/-- The block is read at the second go. An address is added to its last entry, a number is refused
to its first one, and its entries are read again. -/
def raggedHistory : List Event :=
  [.command .load, .command .load, .command (.update 1 [] ['c'] .email),
    .fault .write (.ofNat 0x4F11), .command (.update 0 [] ['2'] .anr), .command .invalidate,
    .command (.loadBlock 0)]

/-- The pointer record that was too long is written cut off, the extension record that ends early is
read as far as it goes, and so is text that breaks off. -/
theorem no_access_fails_raggedCard :
    raggedCard.Measurable ∧
      (∃ s, after (.start raggedCard {}) raggedHistory = some s ∧
        s.card.record? (.ofNat 0x4F25) 2 = some [0x02, 0x00] ∧
        entryAt? s 1 = some (some
          { file := .ofNat 0x4F3A, recordNumber := 2, alpha := ['b'],
            number := ['1', '2', '3', '4'], emails := [['c']], extension := some 0x01 }) ∧
        locate? s 2 = some none) ∧
      decodeAlpha? [0x82, 0x01] = some [' ', '£'] ∧ (parse? [[0xA8, 0x81]]).isSome := by
  have sized : raggedCard.Measurable := by
    intro id file found
    have all : ∀ item ∈ raggedCard.files.items,
        item.2.recordLen * item.2.records.length < wordLimit := by decide
    exact all _ (SortedMap.mem_of_find? found)
  obtain ⟨histories, readable, parses⟩ := no_access_fails
  obtain ⟨done, answers⟩ := histories raggedCard {} raggedHistory sized
  refine ⟨sized, ⟨_, done, by decide +kernel, ?_, ?_⟩, ?_, ?_⟩
  · rw [answers.entry]
    decide +kernel
  · rw [answers.locate]
    decide +kernel
  · rw [(readable _).alpha]
    decide +kernel
  · rw [parses]
    rfl

end UsimPhonebook.Checked
