import UsimPhonebook.Proofs.Session.Mirroring
import UsimPhonebook.Proofs.Session.Stages

/-! # What the counters tell

A session that is metered and alone on its card counts what the card has served: each request by
its operation, each failure, and each record that an update has written by the tag of its file.

`Channel.Books` says what happened at a channel between two moments, by the list of the writes that
succeeded, each under a tag. Everything that is done on the way to a write books nothing
(`Channel.books_ask`); a write is booked together with the event that counts it
(`Desk.posted_writeThrough`), so an edit that fails after its first write has booked this write and
no other (`Desk.posted_edit`).

`Counters.recordAll_tells` says what counters make of a list of events, and
`Session.counters_tell_history` says what this comes to over a history.
-/

namespace UsimPhonebook

/-! ## Counters and history -/

namespace Counters

def requests (c : Counters) : Operation → Nat
  | .readAll => c.readsAll
  | .readSubset => c.readsSubset
  | .write => c.writes
  | .size => c.sizeQueries

def written (c : Counters) : FileTag → Nat
  | .email => c.emailSlotsWritten
  | .anr => c.anrSlotsWritten
  | .iap => c.pointerRewrites
  | _ => 0

theorem roundTrips_eq (c : Counters) :
    c.roundTrips = c.requests .readAll + c.requests .readSubset + c.requests .write +
      c.requests .size := rfl

theorem requests_roundTrip (c : Counters) (op : Operation) (succeeded : Bool) (other : Operation) :
    (c.record (.roundTrip op succeeded)).requests other =
      c.requests other + if op = other then 1 else 0 := by
  cases op <;> cases succeeded <;> cases other <;> rfl

theorem failures_roundTrip (c : Counters) (op : Operation) (succeeded : Bool) :
    (c.record (.roundTrip op succeeded)).failures = c.failures + if succeeded then 0 else 1 := by
  cases op <;> cases succeeded <;> rfl

theorem written_roundTrip (c : Counters) (op : Operation) (succeeded : Bool) (tag : FileTag) :
    (c.record (.roundTrip op succeeded)).written tag = c.written tag := by
  cases op <;> cases succeeded <;> cases tag <;> rfl

end Counters

/-- The tag of the file that the event says was written. -/
def TrafficEvent.tag? : TrafficEvent → Option FileTag
  | .slotWritten kind => some (.ofKind kind)
  | .pointerRewritten => some .iap
  | .roundTrip _ _ => none

/-- An event that says what was written counts under its tag, and is no request. -/
theorem Counters.record_of_tag {event : TrafficEvent} {tag : FileTag}
    (tagged : event.tag? = some tag) (c : Counters) :
    (∀ op, (c.record event).requests op = c.requests op) ∧ (c.record event).failures = c.failures ∧
      ∀ other, (c.record event).written other = c.written other + if tag = other then 1 else 0 := by
  cases event with
  | roundTrip op succeeded => cases tagged
  | slotWritten kind =>
    cases tagged
    cases kind
    · exact ⟨fun op => by cases op <;> rfl, rfl, fun other => by cases other <;> rfl⟩
    · exact ⟨fun op => by cases op <;> rfl, rfl, fun other => by cases other <;> rfl⟩
  | pointerRewritten =>
    cases tagged
    exact ⟨fun op => by cases op <;> rfl, rfl, fun other => by cases other <;> rfl⟩

def TrafficEvent.op? : TrafficEvent → Option Operation
  | .roundTrip op _ => some op
  | _ => none

def TrafficEvent.failed : TrafficEvent → Bool
  | .roundTrip _ succeeded => !succeeded
  | _ => false

theorem Counters.record_tells (c : Counters) (event : TrafficEvent) :
    (∀ op, (c.record event).requests op = c.requests op + if event.op? = some op then 1 else 0) ∧
      (c.record event).failures = c.failures + (if event.failed then 1 else 0) ∧
      ∀ tag, (c.record event).written tag = c.written tag +
        if event.tag? = some tag then 1 else 0 := by
  cases event with
  | roundTrip op succeeded =>
    refine ⟨fun other => ?_, ?_, fun tag => written_roundTrip c op succeeded tag⟩
    · rw [requests_roundTrip]
      simp [TrafficEvent.op?]
    · rw [failures_roundTrip]
      cases succeeded <;> rfl
  | slotWritten kind =>
    have tagged : (TrafficEvent.slotWritten kind).tag? = some (.ofKind kind) := rfl
    obtain ⟨requests, failures, written⟩ := record_of_tag tagged c
    exact ⟨requests, failures, fun tag => by rw [written]; simp [TrafficEvent.tag?]⟩
  | pointerRewritten =>
    have tagged : TrafficEvent.pointerRewritten.tag? = some .iap := rfl
    obtain ⟨requests, failures, written⟩ := record_of_tag tagged c
    exact ⟨requests, failures, fun tag => by rw [written]; simp [TrafficEvent.tag?]⟩

/-- Counters that count a list of events tell how many of it each of them is about. -/
theorem Counters.recordAll_tells (c : Counters) (events : List TrafficEvent) :
    (∀ op, (c.recordAll events).requests op =
      c.requests op + events.countP (·.op? = some op)) ∧
    (c.recordAll events).failures = c.failures + events.countP (·.failed) ∧
    ∀ tag, (c.recordAll events).written tag =
      c.written tag + events.countP (·.tag? = some tag) := by
  induction events generalizing c with
  | nil => exact ⟨fun _ => rfl, rfl, fun _ => rfl⟩
  | cons event rest ih =>
    obtain ⟨requests, failures, written⟩ := c.record_tells event
    obtain ⟨requests', failures', written'⟩ := ih (c.record event)
    refine ⟨fun op => ?_, ?_, fun tag => ?_⟩
    · refine (requests' op).trans ?_
      rw [requests, List.countP_cons]
      simp only [decide_eq_true_eq]
      omega
    · refine failures'.trans ?_
      rw [failures, List.countP_cons]
      omega
    · refine (written' tag).trans ?_
      rw [written, List.countP_cons]
      simp only [decide_eq_true_eq]
      omega

def Served.wrote (served : Served) : Bool := served.succeeded && served.request.op == .write

/-- The writes that succeeded so far, newest first. -/
def Card.writes (card : Card) : List Request := (card.history.filter Served.wrote).map (·.request)

theorem Card.history_serve (card : Card) (request : Request) :
    (card.serve request).2.history =
      ⟨request, (card.serve request).1.toBool⟩ :: card.history := by
  show ⟨request, (card.respond request).1.toBool⟩ :: (card.respond request).2.history = _
  rw [history_respond]
  rfl

/-! ## At a channel -/

namespace Channel

/-- The requests that the channel has counted are those that the card has served. -/
structure Tallied (c : Channel) : Prop where
  metered : c.metered = true
  requests : ∀ op, c.counters.requests op = c.card.history.countP (·.request.op = op)
  failures : c.counters.failures = c.card.failures

/-- From `c` to `c'` these writes succeeded, the first one first, and each was counted under its
tag. -/
structure Books (booked : List (FileTag × Request)) (c c' : Channel) : Prop where
  tallied : c.Tallied → c'.Tallied
  writes : c'.card.writes = (booked.map (·.2)).reverse ++ c.card.writes
  written : c.metered = true → ∀ tag,
    c'.counters.written tag = c.counters.written tag + booked.countP (·.1 = tag)
  metered : c'.metered = c.metered

variable {a b c : Channel} {first second : List (FileTag × Request)}

theorem Books.refl (c : Channel) : Books [] c c := ⟨id, rfl, fun _ _ => rfl, rfl⟩

theorem Books.trans (h : Books first a b) (h' : Books second b c) :
    Books (first ++ second) a c where
  tallied := h'.tallied ∘ h.tallied
  writes := by
    rw [h'.writes, h.writes, List.map_append, List.reverse_append, List.append_assoc]
  written metered tag := by
    rw [h'.written (h.metered.trans metered), h.written metered, List.countP_append]
    omega
  metered := h'.metered.trans h.metered

@[simp] theorem metered_note (c : Channel) (event : TrafficEvent) :
    (c.note event).metered = c.metered := by
  unfold note
  split <;> rfl

theorem counters_note (metered : c.metered = true) (event : TrafficEvent) :
    (c.note event).counters = c.counters.record event := by
  unfold note
  rw [if_pos metered]

@[simp] theorem metered_ask (c : Channel) (request : Request) :
    (c.ask request).2.metered = c.metered := metered_note _ _

theorem counters_ask (metered : c.metered = true) (request : Request) :
    (c.ask request).2.counters =
      c.counters.record (.roundTrip request.op (c.card.serve request).1.toBool) :=
  counters_note (c := { c with card := (c.card.serve request).2 }) metered _

/-- A request is counted as it was served. -/
theorem Tallied.ask (tallied : c.Tallied) (request : Request) : (c.ask request).2.Tallied := by
  have history := c.card.history_serve request
  refine ⟨(metered_ask c request).trans tallied.metered, fun op => ?_, ?_⟩
  · rw [counters_ask tallied.metered, card_ask, history, Counters.requests_roundTrip,
      tallied.requests, List.countP_cons]
    simp
  · rw [counters_ask tallied.metered, card_ask, Counters.failures_roundTrip, tallied.failures]
    unfold Card.failures
    rw [history, List.countP_cons]
    cases (c.card.serve request).1 <;> rfl

theorem writes_ask (c : Channel) (request : Request) :
    (c.ask request).2.card.writes =
      if (c.card.serve request).1.toBool && request.op == .write then request :: c.card.writes
      else c.card.writes := by
  rw [card_ask]
  unfold Card.writes
  rw [c.card.history_serve request, List.filter_cons]
  unfold Served.wrote
  split <;> rfl

theorem written_ask (metered : c.metered = true) (request : Request) (tag : FileTag) :
    (c.ask request).2.counters.written tag = c.counters.written tag := by
  rw [counters_ask metered, Counters.written_roundTrip]

theorem toBool_mapError {ε ε' α : Type} (f : ε → ε') (x : Except ε α) :
    (x.mapError f).toBool = x.toBool := by
  cases x <;> rfl

/-- A request that is no write, or fails, books nothing. -/
theorem books_ask {request : Request}
    (h : request.op ≠ .write ∨ ∃ e, (c.ask request).1 = .error e) :
    Books [] c (c.ask request).2 := by
  refine ⟨(·.ask request), ?_, fun metered tag => written_ask metered request tag,
    metered_ask c request⟩
  rw [writes_ask, if_neg]
  · rfl
  · rcases h with reads | ⟨e, failed⟩
    · simp [reads]
    · have failed : (c.card.serve request).1.mapError Error.transport = .error e := failed
      have refused : (c.card.serve request).1.toBool = false := by
        rw [← toBool_mapError Error.transport, failed]
        rfl
      simp [refused]

/-- A write that succeeds is booked by the event that counts it. -/
theorem books_write {id : FileId} {number : Nat} {record : Bytes} {u : Unit} {event : TrafficEvent}
    {tag : FileTag} (done : (c.ask (.write id number record)).1 = .ok u)
    (tagged : event.tag? = some tag) :
    Books [(tag, .write id number record)] c ((c.ask (.write id number record)).2.note event) := by
  have done : (c.card.serve (.write id number record)).1.mapError Error.transport = .ok u := done
  have granted : (c.card.serve (.write id number record)).1.toBool = true := by
    rw [← toBool_mapError Error.transport, done]
    rfl
  refine ⟨fun tallied => ?_, ?_, fun metered other => ?_, ?_⟩
  · obtain ⟨metered, requests, failures⟩ := tallied.ask (.write id number record)
    have noted := counters_note metered event
    obtain ⟨same, still, -⟩ := Counters.record_of_tag tagged
      (c.ask (.write id number record)).2.counters
    refine ⟨(metered_note _ event).trans metered, fun op => ?_, ?_⟩
    · rw [noted, same, requests, card_note]
    · rw [noted, still, failures, card_note]
  · rw [card_note, writes_ask, granted]
    rfl
  · obtain ⟨-, -, counts⟩ := Counters.record_of_tag tagged
      (c.ask (.write id number record)).2.counters
    rw [counters_note ((metered_ask c _).trans metered), counts, written_ask metered,
      List.countP_singleton]
    simp
  · rw [metered_note, metered_ask]

end Channel

/-! ## Editing a block -/

/-- An action that goes on with the value of a computation leads where it leads with that value. -/
theorem Action.Within.lift_bind {σ α β : Type} {R : σ → σ → Prop} (refl : ∀ s, R s s)
    {x : Except Error α} {f : α → Action σ β} (h : ∀ a, x = .ok a → (f a).Within R) :
    (Action.lift x >>= f).Within R := by
  intro s
  rw [perform_bind, perform_lift]
  cases x with
  | error e => exact refl s
  | ok a => exact h a rfl s

/-- A write that an edit of a kind of field may book: of the record of the field, or of the
index-pointer record of the entry at `offset`. -/
def Reference.Block.Posts (refs : Reference.Block) (kind : FieldKind) (offset : Nat)
    (item : FileTag × Request) : Prop :=
  ∃ id number record, item.2 = .write id number record ∧ refs.file? item.1 = some id ∧
    (item.1 = .ofKind kind ∨ item.1 = .iap ∧ number = offset + 1)

namespace Desk

/-- From `d` to `d'` writes were booked that have the property. -/
def Posted (P : FileTag × Request → Prop) (d d' : Desk) : Prop :=
  ∃ booked, d.channel.Books booked d'.channel ∧ ∀ item ∈ booked, P item

variable {P : FileTag × Request → Prop} {refs : Reference.Block}

theorem Posted.refl (d : Desk) : Posted P d d := ⟨[], .refl _, nofun⟩

theorem Posted.trans (a b c : Desk) (h : Posted P a b) (h' : Posted P b c) : Posted P a c := by
  obtain ⟨first, books, each⟩ := h
  obtain ⟨second, books', each'⟩ := h'
  exact ⟨first ++ second, books.trans books', List.forall_mem_append.2 ⟨each, each'⟩⟩

theorem posted_ask {request : Request} (h : request.op ≠ .write) (d : Desk) :
    Posted P d (d.ask request).2 := ⟨[], Channel.books_ask (.inl h), nofun⟩

/-- To write a record, to change the block and to count it books the write, or nothing. -/
theorem posted_writeThrough {id : FileId} {number : Nat} {record : Bytes} {event : TrafficEvent}
    {tag : FileTag} (tagged : event.tag? = some tag) (holds : P (tag, .write id number record))
    (f : BlockState → BlockState) : (writeThrough id number record f event).Within (Posted P) := by
  intro d
  unfold writeThrough
  rw [Action.perform_bind, perform_write]
  rcases asked : d.ask (.write id number record) with ⟨outcome | u, d'⟩
  · have failed : (d.channel.ask (.write id number record)).1 = .error outcome :=
      congrArg Prod.fst asked
    have books := Channel.books_ask (.inr ⟨_, failed⟩)
    refine ⟨[], ?_, nofun⟩
    rw [← congrArg (fun x => x.2.channel) asked]
    exact books
  · have done : (d.channel.ask (.write id number record)).1 = .ok u := congrArg Prod.fst asked
    refine ⟨_, ?_, List.forall_mem_singleton.2 holds⟩
    have channel : d'.channel = (d.channel.ask (.write id number record)).2 :=
      (congrArg (fun x => x.2.channel) asked).symm
    show d.channel.Books _ (d'.channel.note event)
    rw [channel]
    exact Channel.books_write done tagged

theorem posted_rewritePointer (kind : FieldKind) (offset position : Nat) (pointer : UInt8) :
    (rewritePointer refs offset position pointer).Within (Posted (refs.Posts kind offset)) := by
  unfold rewritePointer
  refine .lift_bind Posted.refl fun id named => ?_
  refine .bind Posted.trans (posted_ask nofun) fun size => ?_
  refine .lift_bind Posted.refl fun _ _ => .lift_bind Posted.refl fun _ _ => ?_
  refine .bind Posted.trans Posted.refl fun block => ?_
  exact posted_writeThrough (show TrafficEvent.tag? .pointerRewritten = some .iap from rfl)
    ⟨id, _, _, rfl, fileOf_eq_ok_iff.1 named, .inr ⟨rfl, rfl⟩⟩ _

/-- An edit books the write of its record, and that of the pointer byte, if they succeed. -/
theorem posted_edit (linkage : Linkage) (kind : FieldKind) (offset : Nat) (old new : Text) :
    (edit refs linkage kind offset old new).Within (Posted (refs.Posts kind offset)) := by
  have relinks (slot : Nat) :
      (relink refs linkage offset slot old new).Within (Posted (refs.Posts kind offset)) := by
    unfold relink
    cases linkage with
    | type1 => exact Posted.refl
    | type2 position =>
      dsimp only
      split
      · exact Posted.refl
      · exact posted_rewritePointer kind offset position _
  unfold edit
  refine .lift_bind Posted.refl fun id named => ?_
  refine .bind Posted.trans Posted.refl fun block => ?_
  refine .lift_bind Posted.refl fun slot _ => ?_
  refine .bind Posted.trans (posted_ask nofun) fun size => ?_
  refine .lift_bind Posted.refl fun _ _ => .lift_bind Posted.refl fun record _ => ?_
  have tagged : TrafficEvent.tag? (.slotWritten kind) = some (.ofKind kind) := rfl
  refine .bind Posted.trans (posted_writeThrough tagged
    ⟨id, slot, record, rfl, fileOf_eq_ok_iff.1 named, .inl rfl⟩ _) fun _ => ?_
  exact .bind Posted.trans (relinks slot) fun _ => Posted.refl

theorem books_load (refs : Reference.Block) (table : Reference.Table) (share : Bool) (d : Desk) :
    d.channel.Books [] ((load refs table share).perform d).2.channel := by
  have ask (d : Desk) (request : Request) (h : refs.Consults request) :
      d.channel.Books [] (d.ask request).2.channel := Channel.books_ask (.inl h.ne_write)
  exact within_load (R := fun d d' => d.channel.Books [] d'.channel) (fun _ => .refl _)
    (fun _ _ _ => .trans) ask
    (fun _ => within_loadPointers (fun _ => .refl _) (fun _ _ _ => .trans) ask fun _ _ => .refl _)
    (fun _ _ _ => .refl _) share d

end Desk

/-- Some block names the file under the tag. -/
def Reference.Table.calls (table : Reference.Table) (tag : FileTag) (id : FileId) : Bool :=
  table.blocks.any fun refs => refs.file? tag == some id

theorem Reference.Table.calls_iff {table : Reference.Table} {tag : FileTag} {id : FileId} :
    table.calls tag id = true ↔
      ∃ i refs, table.block? i = some refs ∧ refs.file? tag = some id := by
  unfold calls block?
  simp only [List.any_eq_true, beq_iff_eq, List.mem_iff_getElem?]
  exact ⟨fun ⟨refs, ⟨i, here⟩, named⟩ => ⟨i, refs, here, named⟩,
    fun ⟨i, refs, here, named⟩ => ⟨refs, ⟨i, here⟩, named⟩⟩

/-- If no file serves twice, a file that is named under a tag is named under no other. -/
theorem Reference.Table.Separate.calls_iff {table : Reference.Table} {reference : FileId}
    (separate : table.Separate reference) {i : Nat} {refs : Reference.Block} {tag : FileTag}
    {id : FileId} (named : table.block? i = some refs) (called : refs.file? tag = some id)
    (other : FileTag) : table.calls other id = true ↔ tag = other := by
  rw [Table.calls_iff]
  constructor
  · rintro ⟨j, refs', named', called'⟩
    exact (separate.once i j refs refs' tag other id named named' called called').2
  · rintro rfl
    exact ⟨i, refs, named, called⟩

/-! ## A session -/

namespace Session

variable {s : Session}

theorem books_loadTable (s : Session) :
    s.channel.Books [] (loadTable.perform s).2.channel := by
  rw [perform_loadTable]
  split
  · exact .refl _
  · split
    · exact .refl _
    · have books : s.channel.Books [] (s.channel.ask (.readAll s.options.referenceFile)).2 :=
        Channel.books_ask (.inl nofun)
      unfold readTable
      rw [Action.perform_of]
      generalize s.channel.ask (.readAll s.options.referenceFile) = asked at books ⊢
      rcases asked with ⟨_ | _ | _, channel⟩ <;> exact books

theorem books_loadBlock (s : Session) (i : Nat) :
    s.channel.Books [] ((loadBlock i).perform s).2.channel := by
  have first := books_loadTable s
  rw [perform_loadBlock]
  rcases had : loadTable.perform s with ⟨e | table, s₁⟩ <;> rw [had] at first
  · exact first
  · refine first.trans ?_
    dsimp only
    unfold visitBlock
    cases s₁.blocks[i]? with
    | none => exact .refl _
    | some b =>
      dsimp only
      split
      · exact .refl _
      · cases table.block? i with
        | none => exact .refl _
        | some refs => exact Desk.books_load refs table _ ⟨s₁.channel, b⟩

theorem books_loadBlocks (s : Session) (blocks : List Nat) :
    s.channel.Books [] ((loadBlocks blocks).perform s).2.channel := by
  induction blocks generalizing s with
  | nil => exact .refl _
  | cons i rest ih =>
    rw [perform_loadBlocks_cons]
    exact (books_loadBlock s i).trans (ih _)

/-- A write that an update of the session's may book: at the entry of which it is an update, in a
file that the table names for the block of this entry. -/
structure Posts (s : Session) (position : Nat) (kind : FieldKind) (item : FileTag × Request) :
    Prop where
  visit : ∃ i offset table refs b, s.Visit position i offset table refs b ∧
    refs.Posts kind offset item

/-- What an event books, if it is an update. -/
def Bookable (s : Session) : Event → FileTag × Request → Prop
  | .command (.update position _ _ kind), item => s.Posts position kind item
  | _, _ => False

theorem books_meet (s : Session) (event : Event) : ∃ booked,
    s.channel.Books booked (s.meet event).channel ∧ ∀ item ∈ booked, s.Bookable event item := by
  cases event with
  -- a fault that is pending is no request
  | fault op file =>
    exact ⟨[], ⟨fun t => ⟨t.metered, t.requests, t.failures⟩, rfl, fun _ _ => rfl, rfl⟩, nofun⟩
  | command command =>
    cases command with
    | load =>
      refine ⟨[], ?_, nofun⟩
      have first := books_loadTable s
      show s.channel.Books [] (load.perform s).2.channel
      rw [perform_load]
      rcases had : loadTable.perform s with ⟨e | table, s₁⟩ <;> rw [had] at first
      · exact first
      · exact first.trans (books_loadBlocks s₁ _)
    | loadBlock i => exact ⟨[], books_loadBlock s i, nofun⟩
    | invalidate => exact ⟨[], .refl _, nofun⟩
    | reset => exact ⟨[], .refl _, nofun⟩
    | update position old new kind =>
      show ∃ booked, s.channel.Books booked
        ((update position old new kind).perform s).2.channel ∧ _
      rcases update_cases s position old new kind with
        ⟨e, refused, -⟩ | ⟨i, offset, table, refs, b, v⟩
      · rw [refused]
        exact ⟨[], .refl _, nofun⟩
      · rw [perform_update v]
        have posted : (Desk.edit refs (table.linkage kind) kind offset old new).Within _ :=
          Desk.posted_edit (table.linkage kind) kind offset old new
        obtain ⟨booked, books, each⟩ := posted ⟨s.channel, b⟩
        exact ⟨booked, books, fun item mem => ⟨i, offset, table, refs, b, v, each item mem⟩⟩

theorem books_after (s : Session) (events : List Event) : ∃ booked,
    s.channel.Books booked (s.after events).channel ∧
      ∀ item ∈ booked, ∃ before event rest, events = before ++ event :: rest ∧
        (s.after before).Bookable event item := by
  induction events generalizing s with
  | nil => exact ⟨[], .refl _, nofun⟩
  | cons event rest ih =>
    obtain ⟨first, books, each⟩ := s.books_meet event
    obtain ⟨second, books', each'⟩ := ih (s.meet event)
    refine ⟨first ++ second, books.trans books', List.forall_mem_append.2
      ⟨fun item mem => ⟨[], event, rest, rfl, each item mem⟩, fun item mem => ?_⟩⟩
    obtain ⟨before, event', rest', rfl, bookable⟩ := each' item mem
    exact ⟨event :: before, event', rest', rfl, bookable⟩

theorem tag_of_bookable {event : Event} {item : FileTag × Request} (h : s.Bookable event item) :
    item.1 = .email ∨ item.1 = .anr ∨ item.1 = .iap := by
  cases event with
  | fault op file => exact h.elim
  | command command =>
    cases command with
    | update position old new kind =>
      obtain ⟨i, offset, table, refs, b, -, id, number, record, -, -, tag | ⟨tag, -⟩⟩ := h.visit
      · cases kind
        · exact .inl tag
        · exact .inr (.inl tag)
      · exact .inr (.inr tag)
    | _ => exact h.elim

/-! ## What the files of the card tell -/

variable {card : Card} {options : Options}

/-- As long as no file serves twice the card has one table for ever, and the session goes by it. -/
theorem one_table_after
    (separate : ∀ table, Reference.Table.on? card.files options.referenceFile = some table →
      table.Separate options.referenceFile) (events : List Event) :
    let s := (start card options).after events
    s.Rooted ∧ s.options = options ∧ Reference.Table.on? s.card.files options.referenceFile =
      Reference.Table.on? card.files options.referenceFile := by
  have first : (start card options).Rooted := ⟨nofun, nofun, rfl⟩
  refine after_invariant (motive := fun s => s.Rooted ∧ s.options = options ∧
    Reference.Table.on? s.card.files options.referenceFile =
      Reference.Table.on? card.files options.referenceFile) (fun s event h => ?_)
    ⟨first, rfl, rfl⟩ events
  obtain ⟨rooted, chosen, same⟩ := h
  subst chosen
  cases event with
  | fault op file => exact ⟨⟨rooted.table, rooted.absent, rooted.blocks⟩, rfl, same⟩
  | command command =>
    show (s.obey command).2.Rooted ∧ (s.obey command).2.options = s.options ∧
      Reference.Table.on? (s.obey command).2.card.files s.options.referenceFile = _
    rcases s.continues_or_update command with continues | ⟨position, old, new, kind, rfl⟩
    · refine ⟨continues.rooted rooted, continues.options, ?_⟩
      rw [continues.reads.files, same]
    · rcases obey_update_cases s position old new kind with
        ⟨e, refused, -⟩ | ⟨i, offset, table, refs, b, outcome, d', v, ended, performed⟩
      · rw [refused]
        exact ⟨rooted, rfl, same⟩
      · have sound := separate table (same ▸ (rooted.table table v.held).1)
        have kept := (ended.confined sound v.named).rooted
        rw [performed]
        exact ⟨rooted.withDesk kept, rfl, kept.trans same⟩

/-- The tag under which a write is booked is the one under which the table names its file. -/
theorem calls_of_bookable
    (separate : ∀ table, Reference.Table.on? card.files options.referenceFile = some table →
      table.Separate options.referenceFile) {before : List Event} {event : Event}
    {item : FileTag × Request} (bookable : ((start card options).after before).Bookable event item)
    (tag : FileTag) : (Reference.Table.on? card.files options.referenceFile).any
      (·.calls tag item.2.file) = true ↔ item.1 = tag := by
  obtain ⟨rooted, chosen, same⟩ := one_table_after separate before
  cases event with
  | fault op file => exact bookable.elim
  | command command =>
    cases command with
    | update position old new kind =>
      obtain ⟨i, offset, table, refs, b, v, id, number, record, write, named, -⟩ := bookable.visit
      have on := (rooted.table table v.held).1
      rw [chosen, same] at on
      rw [on, write]
      exact (separate table on).calls_iff v.named named tag
    | _ => exact bookable.elim

theorem tallied_start (fresh : card.history = []) (metered : options.metered = true) :
    (start card options).channel.Tallied where
  metered := metered
  requests op := by
    show Counters.requests {} op = card.history.countP _
    rw [fresh]
    cases op <;> rfl
  failures := by
    show 0 = card.history.countP _
    rw [fresh]
    rfl

theorem length_eq_operations (history : List Served) :
    history.length = history.countP (·.request.op = .readAll) +
      history.countP (·.request.op = .readSubset) + history.countP (·.request.op = .write) +
      history.countP (·.request.op = .size) := by
  induction history with
  | nil => rfl
  | cons served rest ih =>
    simp only [List.length_cons, List.countP_cons, ih]
    cases served.request <;> simp [Request.op] <;> omega

theorem length_eq_tags {booked : List (FileTag × Request)}
    (tags : ∀ item ∈ booked, item.1 = .email ∨ item.1 = .anr ∨ item.1 = .iap) :
    booked.length = booked.countP (·.1 = .email) + booked.countP (·.1 = .anr) +
      booked.countP (·.1 = .iap) := by
  induction booked with
  | nil => rfl
  | cons item rest ih =>
    obtain ⟨tag, others⟩ := List.forall_mem_cons.1 tags
    simp only [List.length_cons, List.countP_cons, ih others]
    rcases tag with tag | tag | tag <;> simp [tag] <;> omega

/-- The counters of a session that is metered and alone on its card tell what the card has done,
after any history.

Every request is counted once under its operation, whether it succeeds or fails, and the failures
are counted too. Between any two moments the records counted as written are the writes that
succeeded meanwhile: each of them was made by an update, at the entry that it was about, to the
file that the table names for the block of this entry under the tag by which it is counted; and if
that is the tag of index-pointer records, to the record of the entry.

If no file serves twice, the tag by which a write is counted can be told from its file. -/
theorem counters_tell_history (fresh : card.history = []) (metered : options.metered = true)
    (earlier later : List Event) :
    let s := (start card options).after earlier
    let s' := s.after later
    s.counters.roundTrips = s.card.requestCount ∧
    (∀ op, s.counters.requests op = s.card.history.countP (·.request.op = op)) ∧
    s.counters.failures = s.card.failures ∧
    s.card.writes.length = s.counters.emailSlotsWritten + s.counters.anrSlotsWritten +
      s.counters.pointerRewrites ∧
    (∃ booked : List (FileTag × Request),
      s'.card.writes = (booked.map (·.2)).reverse ++ s.card.writes ∧
      (∀ tag, s'.counters.written tag = s.counters.written tag + booked.countP (·.1 = tag)) ∧
      ∀ item ∈ booked, ∃ before event rest, later = before ++ event :: rest ∧
        (s.after before).Bookable event item) ∧
    ((∀ table, Reference.Table.on? card.files options.referenceFile = some table →
        table.Separate options.referenceFile) →
      ∀ tag, s.counters.written tag = s.card.writes.countP fun write =>
        (Reference.Table.on? card.files options.referenceFile).any (·.calls tag write.file)) := by
  intro s s'
  obtain ⟨all, books, traced⟩ := books_after (start card options) earlier
  obtain ⟨booked, more, each⟩ := s.books_after later
  have tallied : s.channel.Tallied := books.tallied (tallied_start fresh metered)
  have none : (start card options).card.writes = [] := by
    show (card.history.filter _).map _ = []
    rw [fresh]
    rfl
  have writes : s.card.writes = (all.map (·.2)).reverse := by
    have writes : s.card.writes = _ ++ (start card options).card.writes := books.writes
    rwa [none, List.append_nil] at writes
  have written (tag : FileTag) : s.counters.written tag = all.countP (·.1 = tag) := by
    have counts : s.counters.written tag = Counters.written {} tag + _ := books.written metered tag
    rw [counts]
    cases tag <;> exact Nat.zero_add _
  refine ⟨?_, tallied.requests, tallied.failures, ?_, ⟨booked, more.writes,
    more.written tallied.metered, each⟩, fun separate tag => ?_⟩
  · have requests (op : Operation) :
        s.counters.requests op = s.card.history.countP (·.request.op = op) := tallied.requests op
    show s.counters.roundTrips = s.card.history.length
    rw [Counters.roundTrips_eq, length_eq_operations, requests, requests, requests, requests]
  · rw [writes, List.length_reverse, List.length_map, length_eq_tags fun item mem => ?_]
    · simp only [← written]
      rfl
    · obtain ⟨before, event, rest, -, bookable⟩ := traced item mem
      exact tag_of_bookable bookable
  · rw [written, writes, List.countP_reverse, List.countP_map]
    refine List.countP_congr fun item mem => ?_
    obtain ⟨before, event, rest, -, bookable⟩ := traced item mem
    exact decide_eq_true_iff.trans (calls_of_bookable separate bookable tag).symm

/-- An additional number is added; then an email is added of which the pointer byte cannot be
written. Three writes have succeeded, one of them to the file of index-pointer records. -/
theorem counters_tell_twinCard :
    let s := (start twinCard { metered := true }).after [.command .load,
      .command (.update 1 [] ['2'] .anr), .fault .write (.ofNat 0x4F25),
      .command (.update 1 [] ['b'] .email)]
    s.card.requestCount = 13 ∧ s.card.failures = 1 ∧ s.card.writes.length = 3 ∧
      s.counters.emailSlotsWritten = 1 ∧
      s.card.writes.countP (fun write =>
        (Reference.Table.on? twinCard.files (.ofNat 0x4F30)).any
          (·.calls .iap write.file)) = 1 := by
  intro s
  have counters : s.counters =
      { readsAll := 4, readsSubset := 1, writes := 4, sizeQueries := 4, failures := 1,
        emailSlotsWritten := 1, anrSlotsWritten := 1, pointerRewrites := 1 } := by
    decide +kernel
  have regular : Regular ({} : Options).referenceFile twinCard.files := by decide +kernel
  obtain ⟨trips, -, failures, writes, -, files⟩ :=
    counters_tell_history (show twinCard.history = [] from rfl)
      (show ({ metered := true } : Options).metered = true from rfl)
      [.command .load, .command (.update 1 [] ['2'] .anr), .fault .write (.ofNat 0x4F25),
        .command (.update 1 [] ['b'] .email)] []
  have total : s.counters.roundTrips = 13 := by rw [counters]; rfl
  have failed : s.counters.failures = 1 := by rw [counters]
  have emails : s.counters.emailSlotsWritten = 1 := by rw [counters]
  have numbers : s.counters.anrSlotsWritten = 1 := by rw [counters]
  have pointers : s.counters.pointerRewrites = 1 := by rw [counters]
  refine ⟨trips.symm.trans total, failures.symm.trans failed, writes.trans ?_, emails,
    (files regular.separate .iap).symm.trans pointers⟩
  show s.counters.emailSlotsWritten + s.counters.anrSlotsWritten + s.counters.pointerRewrites = 3
  rw [emails, numbers, pointers]

end Session

end UsimPhonebook
