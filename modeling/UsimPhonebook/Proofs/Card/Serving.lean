import UsimPhonebook.Session.Desk

/-! # What a request does to the card

A request that fails leaves every file as it is, and so does every request but a write
(`Desk.ask_reads`). A request that succeeds was answered by the file that it names
(`Desk.file_of_ask`, `Desk.written_of_ask`). Without a pending fault the file alone decides
(`Desk.ask_of_calm`), and a fault that is pending strikes first (`Desk.ask_of_fault`).

`Card.Follows` and `Card.Reads` are what one card has to do with a later one, over any number of
requests.
-/

namespace UsimPhonebook

namespace Card

def failures (card : Card) : Nat := card.history.countP fun served => !served.succeeded

/-- A card some requests later: no failure is forgotten and no fault appears. -/
structure Follows (card later : Card) : Prop where
  failures : card.failures ≤ later.failures
  faultless : card.faults = [] → later.faults = []

/-- A card some requests later of which none was a write that succeeded. -/
structure Reads (card later : Card) : Prop extends Follows card later where
  files : later.files = card.files

theorem Follows.refl (card : Card) : Follows card card := ⟨Nat.le_refl _, id⟩

theorem Follows.trans {a b c : Card} (h : Follows a b) (h' : Follows b c) : Follows a c :=
  ⟨Nat.le_trans h.failures h'.failures, fun calm => h'.faultless (h.faultless calm)⟩

theorem Reads.refl (card : Card) : Reads card card := ⟨.refl card, rfl⟩

theorem Reads.trans {a b c : Card} (h : Reads a b) (h' : Reads b c) : Reads a c :=
  ⟨h.toFollows.trans h'.toFollows, h'.files.trans h.files⟩

theorem Reads.file? {a b : Card} (h : Reads a b) (id : FileId) : b.file? id = a.file? id := by
  simp only [Card.file?, h.files]

/-- A file that refuses a request stays as it is, and so does one that is only read. -/
theorem answer_snd {file : RecordFile} {request : Request}
    (h : request.op ≠ .write ∨ ∃ e, (request.answer file).1 = .error e) :
    (request.answer file).2 = file := by
  cases request with
  | write id number data =>
    rcases h with h | ⟨e, h⟩
    · exact absurd rfl h
    · unfold Request.answer at h ⊢
      dsimp only at h ⊢
      split <;> simp_all
      split <;> simp_all
  | _ => rfl

theorem answer_write {file : RecordFile} {number : Nat} {data : Bytes} (id : FileId)
    (len : data.length = file.recordLen) (low : 1 ≤ number) (high : number ≤ file.records.length) :
    Request.answer file (.write id number data) = (.ok (), file.setRecord number data) := by
  have there : (file.record? number).isNone = false := by
    obtain ⟨n, rfl⟩ : ∃ n, number = n + 1 := ⟨number - 1, by omega⟩
    simp [RecordFile.record?]
    omega
  unfold Request.answer
  dsimp only
  rw [if_neg (by simpa using len), if_neg (by simp [there])]

theorem granted_of_answer_write {file : RecordFile} {id : FileId} {number : Nat} {data : Bytes}
    {u : Unit} (granted : (Request.answer file (.write id number data)).1 = .ok u) :
    data.length = file.recordLen ∧ 1 ≤ number ∧ number ≤ file.records.length := by
  unfold Request.answer at granted
  dsimp only at granted
  split at granted
  · cases granted
  · next len =>
    split at granted
    · cases granted
    · next there =>
      refine ⟨by simpa using len, ?_⟩
      cases number with
      | zero => simp [RecordFile.record?] at there
      | succ n =>
        simp only [RecordFile.record?, numbered?_succ, Option.isNone_iff_eq_none,
          List.getElem?_eq_none_iff] at there
        omega

theorem respond_of_fault {card : Card} {request : Request}
    (h : (request.op, request.file) ∈ card.faults) :
    card.respond request = (.error (.injected request.op request.file),
      { card with faults := card.faults.erase (request.op, request.file) }) := by
  unfold respond
  rw [if_pos h]

theorem respond_of_missing {card : Card} {request : Request}
    (calm : (request.op, request.file) ∉ card.faults) (h : card.file? request.file = none) :
    card.respond request = (.error (.fileNotFound request.file), card) := by
  unfold respond
  rw [if_neg calm, h]

theorem respond_of_file {card : Card} {request : Request} {file : RecordFile}
    (calm : (request.op, request.file) ∉ card.faults) (h : card.file? request.file = some file) :
    card.respond request = ((request.answer file).1,
      { card with files := card.files.replace request.file (request.answer file).2 }) := by
  unfold respond
  rw [if_neg calm, h]

theorem follows_serve (card : Card) (request : Request) : Follows card (card.serve request).2 := by
  have record (c : Card) (outcome : Bool) (h : c.history = card.history) :
      card.failures ≤ { c with history := ⟨request, outcome⟩ :: c.history }.failures := by
    simp only [failures, h, List.countP_cons]
    omega
  by_cases fault : (request.op, request.file) ∈ card.faults
  · unfold serve
    rw [respond_of_fault fault]
    refine ⟨record _ _ rfl, fun calm => ?_⟩
    rw [calm] at fault
    cases fault
  · unfold serve
    cases h : card.file? request.file with
    | none =>
      rw [respond_of_missing fault h]
      exact ⟨record _ _ rfl, id⟩
    | some file =>
      rw [respond_of_file fault h]
      exact ⟨record _ _ rfl, id⟩

theorem history_respond (card : Card) (request : Request) :
    (card.respond request).2.history = card.history := by
  by_cases fault : (request.op, request.file) ∈ card.faults
  · rw [respond_of_fault fault]
  · cases found : card.file? request.file with
    | none => rw [respond_of_missing fault found]
    | some file => rw [respond_of_file fault found]

theorem failures_serve_of_error {card : Card} {request : Request} {e : TransportError}
    (h : (card.serve request).1 = .error e) : card.failures < (card.serve request).2.failures := by
  have failed : (card.respond request).1 = .error e := h
  show card.history.countP _ <
    List.countP _ (⟨request, (card.respond request).1.toBool⟩ :: (card.respond request).2.history)
  rw [history_respond, failed, List.countP_cons]
  simp [Except.toBool]

theorem files_serve (card : Card) (request : Request)
    (h : request.op ≠ .write ∨ ∃ e, (card.serve request).1 = .error e) :
    (card.serve request).2.files = card.files := by
  have h' : request.op ≠ .write ∨ ∃ e, (card.respond request).1 = .error e := h
  show (card.respond request).2.files = card.files
  by_cases fault : (request.op, request.file) ∈ card.faults
  · rw [respond_of_fault fault]
  · cases found : card.file? request.file with
    | none => rw [respond_of_missing fault found]
    | some file =>
      rw [respond_of_file fault found] at h' ⊢
      rw [answer_snd h']
      exact SortedMap.replace_eq_self found

/-- A request succeeds only if its file is there and grants it. -/
theorem file_of_serve {card : Card} {request : Request} {reply : request.Reply}
    (h : (card.serve request).1 = .ok reply) :
    ∃ file, card.file? request.file = some file ∧ (request.answer file).1 = .ok reply ∧
      (card.serve request).2.files = card.files.replace request.file (request.answer file).2 := by
  have h' : (card.respond request).1 = .ok reply := h
  by_cases fault : (request.op, request.file) ∈ card.faults
  · rw [respond_of_fault fault] at h'
    cases h'
  · cases found : card.file? request.file with
    | none =>
      rw [respond_of_missing fault found] at h'
      cases h'
    | some file =>
      rw [respond_of_file fault found] at h'
      refine ⟨file, rfl, h', ?_⟩
      show (card.respond request).2.files = _
      rw [respond_of_file fault found]

end Card

/-! ## Through the channel -/

namespace Desk

abbrev card (d : Desk) : Card := d.channel.card

theorem card_ask (d : Desk) (request : Request) :
    (d.ask request).2.card = (d.card.serve request).2 := Channel.card_ask d.channel request

theorem ask_fst (d : Desk) (request : Request) :
    (d.ask request).1 = (d.card.serve request).1.mapError .transport := rfl

@[simp] theorem card_note (d : Desk) (event : TrafficEvent) :
    Desk.card { d with channel := d.channel.note event } = d.card := Channel.card_note _ _

theorem follows_ask (d : Desk) (request : Request) : d.card.Follows (d.ask request).2.card := by
  rw [card_ask]
  exact Card.follows_serve d.card request

theorem serve_of_ask_error {d : Desk} {request : Request} {e : Error}
    (h : (d.ask request).1 = .error e) : ∃ cause, (d.card.serve request).1 = .error cause := by
  rw [ask_fst] at h
  cases served : (d.card.serve request).1 with
  | error cause => exact ⟨cause, rfl⟩
  | ok reply =>
    rw [served] at h
    cases h

/-- Whatever fails, and whatever is no write, leaves the files as they are. -/
theorem ask_reads {d : Desk} {request : Request}
    (h : request.op ≠ .write ∨ ∃ e, (d.ask request).1 = .error e) :
    d.card.Reads (d.ask request).2.card := by
  refine ⟨follows_ask d request, ?_⟩
  rw [card_ask]
  exact Card.files_serve d.card request (h.imp_right fun ⟨_, h⟩ => serve_of_ask_error h)

theorem failures_ask_of_error {d : Desk} {request : Request} {e : Error}
    (h : (d.ask request).1 = .error e) : d.card.failures < (d.ask request).2.card.failures := by
  obtain ⟨cause, served⟩ := serve_of_ask_error h
  rw [card_ask]
  exact Card.failures_serve_of_error served

theorem file_of_ask {d : Desk} {request : Request} {reply : request.Reply}
    (h : (d.ask request).1 = .ok reply) :
    ∃ file, d.card.file? request.file = some file ∧ (request.answer file).1 = .ok reply ∧
      (d.ask request).2.card.files
        = d.card.files.replace request.file (request.answer file).2 := by
  rw [ask_fst] at h
  rw [card_ask]
  cases served : (d.card.serve request).1 with
  | error cause =>
    rw [served] at h
    cases h
  | ok other =>
    rw [served] at h
    cases h
    exact Card.file_of_serve served

/-- A write that succeeds had a record of the right length for a number that is there. -/
theorem written_of_ask {d : Desk} {id : FileId} {number : Nat} {data : Bytes} {u : Unit}
    (h : (d.ask (.write id number data)).1 = .ok u) :
    ∃ file, d.card.file? id = some file ∧ data.length = file.recordLen ∧ 1 ≤ number ∧
      number ≤ file.records.length ∧
      (d.ask (.write id number data)).2.card.files
        = d.card.files.replace id (file.setRecord number data) := by
  obtain ⟨file, found, granted, files⟩ := file_of_ask h
  obtain ⟨len, low, high⟩ := Card.granted_of_answer_write granted
  rw [Card.answer_write id len low high] at files
  exact ⟨file, found, len, low, high, files⟩

/-! ## With and without faults -/

/-- No fault is pending for the request. -/
def Calm (d : Desk) (request : Request) : Prop := (request.op, request.file) ∉ d.card.faults

theorem calm_of_faultless {d : Desk} (h : d.card.faults = []) (request : Request) :
    d.Calm request := by
  unfold Calm
  rw [h]
  exact List.not_mem_nil

theorem ask_of_calm {d : Desk} (request : Request) {file : RecordFile} (calm : d.Calm request)
    (h : d.card.file? request.file = some file) :
    (d.ask request).1 = (request.answer file).1.mapError .transport ∧
      (d.ask request).2.card.faults = d.card.faults := by
  rw [card_ask]
  show (d.card.respond request).1.mapError Error.transport = _ ∧
    (d.card.respond request).2.faults = _
  rw [Card.respond_of_file calm h]
  exact ⟨rfl, rfl⟩

theorem ask_of_missing {d : Desk} (request : Request) (calm : d.Calm request)
    (h : d.card.file? request.file = none) :
    (d.ask request).1 = .error (.transport (.fileNotFound request.file)) := by
  show (d.card.respond request).1.mapError Error.transport = _
  rw [Card.respond_of_missing calm h]
  rfl

theorem ask_of_fault {d : Desk} (request : Request) (h : ¬ d.Calm request) :
    (d.ask request).1 = .error (.transport (.injected request.op request.file)) ∧
      (d.ask request).2.card.faults = d.card.faults.erase (request.op, request.file) := by
  have fault : (request.op, request.file) ∈ d.card.faults := Decidable.not_not.1 h
  rw [card_ask]
  show (d.card.respond request).1.mapError Error.transport = _ ∧
    (d.card.respond request).2.faults = _
  rw [Card.respond_of_fault fault]
  exact ⟨rfl, rfl⟩

/-- A request that succeeds met no fault, and uses none up. -/
theorem faults_ask_of_ok {d : Desk} {request : Request} {reply : request.Reply}
    (h : (d.ask request).1 = .ok reply) : (d.ask request).2.card.faults = d.card.faults := by
  by_cases calm : d.Calm request
  · obtain ⟨file, found, -⟩ := file_of_ask h
    exact (ask_of_calm _ calm found).2
  · rw [(ask_of_fault _ calm).1] at h
    cases h

theorem write_of_calm {d : Desk} {id : FileId} {number : Nat} {data : Bytes} {file : RecordFile}
    (calm : d.Calm (.write id number data)) (h : d.card.file? id = some file)
    (len : data.length = file.recordLen) (low : 1 ≤ number) (high : number ≤ file.records.length) :
    (d.ask (.write id number data)).1 = .ok () := by
  rw [(ask_of_calm _ calm h).1, Card.answer_write id len low high]
  rfl

/-- A request that only reads fails, without a fault only if there is no such file, or it is
granted. Either way the block and the files stay as they are. -/
theorem read_cases (d : Desk) (request : Request) (h : request.op ≠ .write) :
    (∃ e d', d.ask request = (.error e, d') ∧ d'.block = d.block ∧ d.card.Reads d'.card ∧
      (d.card.faults = [] → d.card.file? request.file = none)) ∨
    ∃ file reply d', d.ask request = (.ok reply, d') ∧ d'.block = d.block ∧
      d.card.Reads d'.card ∧ d.card.file? request.file = some file ∧
      (request.answer file).1 = .ok reply := by
  have reads : d.card.Reads (d.ask request).2.card := ask_reads (.inl h)
  have block := block_ask d request
  rcases asked : d.ask request with ⟨e | reply, d'⟩
  · left
    rw [asked] at reads block
    refine ⟨e, d', rfl, block, reads, fun calm => ?_⟩
    cases found : d.card.file? request.file with
    | none => rfl
    | some file =>
      have granted := (ask_of_calm request (calm_of_faultless calm request) found).1
      rw [asked] at granted
      cases request with
      | write id number data => exact absurd rfl h
      | _ => cases granted
  · right
    obtain ⟨file, found, granted, -⟩ := file_of_ask (congrArg Prod.fst asked)
    rw [asked] at reads block
    exact ⟨file, reply, d', rfl, block, reads, found, granted⟩

end Desk

end UsimPhonebook
