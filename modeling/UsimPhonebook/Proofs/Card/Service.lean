import UsimPhonebook.Card.Queue
import UsimPhonebook.Proofs.Session.Footprint

/-! # What the card does with a request

A request meets a fault if one is pending for its operation and file (`Card.injected_iff`), and uses
it up (`Card.faults_serve`), so of many requests the first ones meet the faults
(`Card.count_faults_serveAll`). Any other request is answered by its file, and what a success means
for the card is `Request.Effect`.

`Card.shapes` is what no request changes, provided that the records have the length of their file
(`Card.shapes_serve`).
-/

namespace UsimPhonebook

/-- The operation and the file of a request. -/
def Request.target (request : Request) : Operation × FileId := (request.op, request.file)

/-- The request can be answered by this file. -/
def Request.GrantedBy (file : RecordFile) : Request → Prop
  | write _ number data =>
    data.length = file.recordLen ∧ 1 ≤ number ∧ number ≤ file.records.length
  | _ => True

/-- What a request gives that succeeds, and what it makes of the card. -/
def Request.Effect (before after : Card) : (request : Request) → request.Reply → Prop
  | readAll id, reply =>
    (∃ file, before.file? id = some file ∧ reply = file.records) ∧ after.files = before.files
  | readSubset id numbers, reply =>
    reply = numbers.filterMap (before.record? id) ∧ after.files = before.files
  | write id number data, _ =>
    (∃ old, before.record? id number = some old) ∧
      ∀ id' number', after.record? id' number' =
        if id' = id ∧ number' = number then some data else before.record? id' number'
  | size id, reply =>
    (∃ file, before.file? id = some file ∧ reply = file.geometry) ∧ after.files = before.files

/-- The record length of a file and the lengths of its records. -/
def RecordFile.shape (file : RecordFile) : Nat × List Nat :=
  (file.recordLen, file.records.map List.length)

namespace Card

/-- The files of a card, and the shape of each. -/
def shapes (card : Card) : List (FileId × Nat × List Nat) :=
  card.files.items.map fun item => (item.1, item.2.shape)

/-- Every record has the record length of its file. -/
def WellSized (card : Card) : Prop := ∀ id file, card.file? id = some file → file.WellSized

variable {card : Card} {request : Request}

/-! ## Faults -/

theorem faults_serve (card : Card) (request : Request) :
    (card.serve request).2.faults = card.faults.erase request.target := by
  show (card.respond request).2.faults = _
  by_cases fault : request.target ∈ card.faults
  · rw [respond_of_fault fault]
    rfl
  · rw [List.erase_of_not_mem fault]
    cases found : card.file? request.file with
    | none => rw [respond_of_missing fault found]
    | some file => rw [respond_of_file fault found]

/-- A file injects no fault. -/
theorem answer_ne_injected {file : RecordFile} {op : Operation} {id : FileId} :
    (request.answer file).1 ≠ .error (.injected op id) := by
  cases request with
  | write id number data =>
    unfold Request.answer
    dsimp only
    split
    · nofun
    · split <;> nofun
  | _ => nofun

/-- A request that meets a fault fails for it, and no other request does. -/
theorem injected_iff {op : Operation} {id : FileId} :
    (card.serve request).1 = .error (.injected op id) ↔
      request.target ∈ card.faults ∧ request.target = (op, id) := by
  show (card.respond request).1 = _ ↔ _
  by_cases fault : request.target ∈ card.faults
  · rw [respond_of_fault fault]
    simp [Request.target, show (request.op, request.file) ∈ card.faults from fault]
  · refine iff_of_false ?_ fun met => fault met.1
    cases found : card.file? request.file with
    | none =>
      rw [respond_of_missing fault found]
      nofun
    | some file =>
      rw [respond_of_file fault found]
      exact answer_ne_injected

/-- The faults that some requests leave: of each kind one less for each request that it strikes. -/
theorem count_faults_serveAll (card : Card) (requests : List Request)
    (target : Operation × FileId) :
    (card.serveAll requests).2.faults.count target =
      card.faults.count target - requests.countP fun request => request.target = target := by
  induction requests generalizing card with
  | nil => rfl
  | cons request rest ih =>
    show ((card.serve request).2.serveAll rest).2.faults.count target = _
    rw [ih, faults_serve, List.count_erase, List.countP_cons]
    by_cases same : request.target = target
    · simp [same]
      omega
    · simp [same]

/-! ## Answers -/

/-- A file that grants a request, and no other, answers it. -/
theorem answer_isOk_iff {file : RecordFile} :
    (∃ reply, (request.answer file).1 = .ok reply) ↔ request.GrantedBy file := by
  cases request with
  | write id number data =>
    refine ⟨fun ⟨_, granted⟩ => granted_of_answer_write granted, fun ⟨len, low, high⟩ => ⟨(), ?_⟩⟩
    rw [answer_write id len low high]
  | _ => exact iff_of_true ⟨_, rfl⟩ trivial

theorem serve_isOk_iff (calm : request.target ∉ card.faults) :
    (∃ reply, (card.serve request).1 = .ok reply) ↔
      ∃ file, card.file? request.file = some file ∧ request.GrantedBy file := by
  show (∃ reply, (card.respond request).1 = .ok reply) ↔ _
  cases found : card.file? request.file with
  | none =>
    rw [respond_of_missing calm found]
    exact iff_of_false nofun nofun
  | some file =>
    rw [respond_of_file calm found]
    exact answer_isOk_iff.trans
      ⟨fun granted => ⟨file, rfl, granted⟩, fun ⟨_, rfl, granted⟩ => granted⟩

/-- What a success means for the card. -/
theorem effect_of_serve {reply : request.Reply} (done : (card.serve request).1 = .ok reply) :
    request.Effect card (card.serve request).2 reply := by
  obtain ⟨file, found, granted, files⟩ := file_of_serve done
  have same (reads : request.op ≠ .write) : (card.serve request).2.files = card.files :=
    files_serve card request (.inl reads)
  cases request with
  | readAll id =>
    cases granted
    exact ⟨⟨file, found, rfl⟩, same nofun⟩
  | readSubset id numbers =>
    cases granted
    refine ⟨?_, same nofun⟩
    have records : card.record? id = file.record? := by
      funext number
      unfold Card.record?
      rw [show card.file? id = some file from found]
    rw [records]
    rfl
  | size id =>
    cases granted
    exact ⟨⟨file, found, rfl⟩, same nofun⟩
  | write id number data =>
    obtain ⟨len, low, high⟩ := granted_of_answer_write granted
    rw [answer_write id len low high] at files
    refine ⟨⟨file.records[number - 1], ?_⟩, record?_of_replace found files low high⟩
    unfold Card.record?
    rw [show card.file? id = some file from found]
    dsimp only
    rw [RecordFile.record?_eq low, List.getElem?_eq_getElem]

/-! ## Shapes -/

theorem wellSized_shape {file : RecordFile} (sized : file.WellSized) :
    file.shape = (file.recordLen, List.replicate file.records.length file.recordLen) := by
  unfold RecordFile.shape
  congr 1
  refine List.eq_replicate_iff.2 ⟨List.length_map _, fun n mem => ?_⟩
  obtain ⟨record, there, rfl⟩ := List.mem_map.1 mem
  exact sized record there

theorem shapes_replace {id : FileId} {file later : RecordFile}
    (found : card.file? id = some file) (shape : later.shape = file.shape) :
    ({ card with files := card.files.replace id later } : Card).shapes = card.shapes := by
  obtain ⟨⟨items⟩, faults, history⟩ := card
  show (SortedMap.replaceItem id later items).map _ = items.map _
  have found : items.lookup id = some file := found
  induction items with
  | nil => rfl
  | cons item rest ih =>
    rw [List.lookup_cons] at found
    unfold SortedMap.replaceItem
    by_cases same : id = item.1
    · rw [if_pos same]
      simp only [same, beq_self_eq_true] at found
      simp [shape, ← Option.some.inj found]
    · rw [if_neg same]
      have other : (id == item.1) = false := by simpa using same
      simp only [other] at found
      rw [List.map_cons, List.map_cons, ih found found]

theorem shape_answer {file : RecordFile} (sized : file.WellSized) (request : Request) :
    (request.answer file).2.WellSized ∧ (request.answer file).2.shape = file.shape := by
  cases request with
  | write id number data =>
    unfold Request.answer
    dsimp only
    split
    · exact ⟨sized, rfl⟩
    · next len =>
      split
      · exact ⟨sized, rfl⟩
      · have later := sized.setRecord number (Decidable.not_not.1 len)
        refine ⟨later, ?_⟩
        rw [wellSized_shape later, wellSized_shape sized]
        simp [RecordFile.setRecord]
  | _ => exact ⟨sized, rfl⟩

theorem shapes_serve (sized : card.WellSized) (request : Request) :
    (card.serve request).2.WellSized ∧ (card.serve request).2.shapes = card.shapes := by
  cases done : (card.serve request).1 with
  | error e =>
    have files := files_serve card request (.inr ⟨e, done⟩)
    refine ⟨fun id file found => sized id file ?_, ?_⟩
    · rwa [Card.file?, files] at found
    · rw [shapes, files, shapes]
  | ok reply =>
    obtain ⟨file, found, -, files⟩ := file_of_serve done
    obtain ⟨later, shape⟩ := shape_answer (sized _ file found) request
    refine ⟨fun id other there => ?_, ?_⟩
    · rw [file?_of_replace found files] at there
      split at there
      · cases there
        exact later
      · exact sized id other there
    · rw [shapes, files]
      exact shapes_replace found shape

theorem shapes_serveAll (sized : card.WellSized) (requests : List Request) :
    (card.serveAll requests).2.WellSized ∧ (card.serveAll requests).2.shapes = card.shapes := by
  induction requests generalizing card with
  | nil => exact ⟨sized, rfl⟩
  | cons request rest ih =>
    obtain ⟨sized', same⟩ := shapes_serve sized request
    obtain ⟨later, shapes⟩ := ih sized'
    exact ⟨later, shapes.trans same⟩

/-! ## One request of many -/

/-- The answer to a request is what the card says to it that the requests before it leave. -/
theorem getElem?_serveAll (card : Card) (requests : List Request) (i : Nat) :
    (card.serveAll requests).1[i]? = requests[i]?.map fun request =>
      ⟨request, ((card.serveAll (requests.take i)).2.serve request).1.mapError .transport⟩ := by
  induction requests generalizing card i with
  | nil => rfl
  | cons request rest ih =>
    cases i with
    | zero => rfl
    | succ i => exact ih (card.serve request).2 i

theorem serveAll_take_succ {requests : List Request} {i : Nat}
    (here : requests[i]? = some request) :
    (card.serveAll (requests.take (i + 1))).2 =
      ((card.serveAll (requests.take i)).2.serve request).2 := by
  rw [List.take_add_one, here, serveAll_append]
  rfl

theorem served_at (sized : card.WellSized) {requests : List Request} {i : Nat}
    (here : requests[i]? = some request) :
    let before := (card.serveAll (requests.take i)).2
    let after := (card.serveAll (requests.take (i + 1))).2
    let struck := (requests.take i).countP (fun earlier => earlier.target = request.target)
      < card.faults.count request.target
    ∃ outcome, (card.serveAll requests).1[i]? = some ⟨request, outcome⟩ ∧
      (∀ op id, outcome = .error (.transport (.injected op id)) ↔
        struck ∧ request.target = (op, id)) ∧
      (¬ struck → ((∃ reply, outcome = .ok reply) ↔
        ∃ file, before.file? request.file = some file ∧ request.GrantedBy file)) ∧
      (∀ e, outcome = .error e → after.files = before.files) ∧
      (∀ reply, outcome = .ok reply → request.Effect before after reply) ∧
      after.shapes = card.shapes := by
  intro before after struck
  have step : after = (before.serve request).2 := serveAll_take_succ here
  have meets : struck ↔ request.target ∈ before.faults := by
    rw [← List.count_pos_iff, count_faults_serveAll]
    omega
  have ok (reply : request.Reply) : (before.serve request).1.mapError Error.transport = .ok reply ↔
      (before.serve request).1 = .ok reply := by
    cases (before.serve request).1 with
    | error e => exact iff_of_false (fun same => by cases same) fun same => by cases same
    | ok v =>
      show Except.ok v = _ ↔ _
      simp
  refine ⟨(before.serve request).1.mapError .transport, ?_, fun op id => ?_, fun calm => ?_,
    fun e failed => ?_, fun reply done => ?_, (shapes_serveAll sized _).2⟩
  · rw [getElem?_serveAll, here]
    rfl
  · rw [meets, ← injected_iff]
    cases (before.serve request).1 with
    | error e =>
      show Except.error (Error.transport e) = _ ↔ _
      simp
    | ok v => exact iff_of_false (fun same => by cases same) fun same => by cases same
  · simp only [ok]
    exact serve_isOk_iff fun met => calm (meets.2 met)
  · rw [step]
    cases outcome : (before.serve request).1 with
    | error cause => exact files_serve before request (.inr ⟨cause, outcome⟩)
    | ok reply =>
      rw [outcome] at failed
      cases failed
  · rw [step]
    exact effect_of_serve ((ok reply).1 done)

end Card

end UsimPhonebook
