import UsimPhonebook.Proofs.Card.Service

/-! # The queue serves as if every request were answered at once

However requests, answers and waits follow each other, the outcome of a ticket is the one that the
card gives when it answers all requests one after the other (`Card.serveAll`). The invariant is
`Queue.Sound`: the requests before `served` have been answered so, and the exchange of each holds
its outcome until a wait takes it.

`Queue.serves_in_order` says this of every run, together with what the outcome of a request is and
what it makes of the card.
-/

namespace UsimPhonebook.Queue

/-- The queue of a card to which some requests were sent, and of which the outcomes of the tickets
`taken` were given to somebody. -/
structure Sound (start : Card) (taken : List Nat) (q : Queue) : Prop where
  served : q.served ≤ q.sent.length
  card : q.card = (start.serveAll (q.requests.take q.served)).2
  once : taken.Nodup
  inside : ∀ ticket ∈ taken, ticket < q.served
  pending : ∀ ticket s, q.sent[ticket]? = some s → q.served ≤ ticket → s.exchange = .pending
  answered : ∀ ticket s, q.sent[ticket]? = some s → ticket < q.served →
    ∃ outcome, (start.serveAll q.requests).1[ticket]? = some ⟨s.request, outcome⟩ ∧
      s.exchange = if ticket ∈ taken then {} else .ready outcome

variable {start : Card} {taken : List Nat} {q : Queue}

theorem sound_start (start : Card) : ({ card := start } : Queue).Sound start [] where
  served := Nat.le_refl _
  card := rfl
  once := .nil
  inside _ mem := by cases mem
  pending _ _ here := by cases here
  answered _ _ here := by cases here

@[simp] theorem length_requests (q : Queue) : q.requests.length = q.sent.length := by
  simp [requests]

theorem getElem?_serveAll_append {requests : List Request} {i : Nat} (inside : i < requests.length)
    (more : List Request) :
    (start.serveAll (requests ++ more)).1[i]? = (start.serveAll requests).1[i]? := by
  rw [Card.serveAll_append, List.getElem?_append_left (by simpa using inside)]

/-! ## Sending -/

theorem Sound.send (sound : q.Sound start taken) (request : Request) :
    (q.send request).2.Sound start taken := by
  have split (ticket : Nat) (s : Sent) (here : (q.send request).2.sent[ticket]? = some s) :
      q.sent[ticket]? = some s ∨ q.sent.length ≤ ticket ∧ s = { request } := by
    have here : (q.sent ++ [({ request } : Sent)])[ticket]? = some s := here
    rcases Nat.lt_or_ge ticket q.sent.length with old | new
    · exact .inl (List.getElem?_append_left old ▸ here)
    · rw [List.getElem?_append_right new, List.getElem?_singleton] at here
      split at here
      · cases here
        exact .inr ⟨new, rfl⟩
      · cases here
  have room := sound.served
  refine ⟨?_, ?_, sound.once, sound.inside, fun ticket s here late => ?_,
    fun ticket s here early => ?_⟩
  · show q.served ≤ (q.sent ++ [({ request } : Sent)]).length
    simp only [List.length_append]
    omega
  · rw [requests_send]
    show q.card = (start.serveAll ((q.requests ++ [request]).take q.served)).2
    rw [List.take_append_of_le_length (by simpa using room)]
    exact sound.card
  · rcases split ticket s here with old | ⟨-, rfl⟩
    · exact sound.pending ticket s old late
    · rfl
  · have early : ticket < q.served := early
    rcases split ticket s here with old | ⟨new, -⟩
    · rw [requests_send, getElem?_serveAll_append (by simp only [length_requests]; omega)]
      exact sound.answered ticket s old early
    · omega

/-! ## Answering -/

/-- The next request is answered as it is in the order of requests. -/
theorem Sound.serveNext_eq (sound : q.Sound start taken) {s : Sent}
    (here : q.sent[q.served]? = some s) :
    q.serveNext =
      { card := (start.serveAll (q.requests.take (q.served + 1))).2
        sent := q.sent.set q.served
          ⟨s.request, .ready ((q.card.serve s.request).1.mapError .transport)⟩
        served := q.served + 1 } := by
  have next : q.requests[q.served]? = some s.request := by simp [requests, here]
  unfold serveNext
  rw [here, Card.serveAll_take_succ next, ← sound.card]
  dsimp only [Sent.serve]
  rw [sound.pending _ s here (Nat.le_refl _)]
  rfl

theorem Sound.serveNext (sound : q.Sound start taken) : q.serveNext.Sound start taken := by
  cases here : q.sent[q.served]? with
  | none =>
    unfold Queue.serveNext
    rw [here]
    exact sound
  | some s =>
    have inside : q.served < q.sent.length := (List.getElem?_eq_some_iff.1 here).1
    have requests := q.requests_serveNext
    rw [sound.serveNext_eq here] at requests ⊢
    refine ⟨?_, ?_, sound.once, fun ticket mem => ?_, fun ticket s' there late => ?_,
      fun ticket s' there early => ?_⟩
    · simp only [List.length_set]
      omega
    · rw [requests]
    · exact Nat.lt_succ_of_lt (sound.inside ticket mem)
    · have late : q.served + 1 ≤ ticket := late
      rw [List.getElem?_set_ne (by omega)] at there
      exact sound.pending ticket s' there (by omega)
    · have early : ticket < q.served + 1 := early
      rw [requests]
      rcases Nat.lt_or_eq_of_le (Nat.le_of_lt_succ early) with before | rfl
      · rw [List.getElem?_set_ne (by omega)] at there
        exact sound.answered ticket s' there before
      · rw [List.getElem?_set_self inside] at there
        cases there
        have untaken : q.served ∉ taken := fun mem => Nat.lt_irrefl _ (sound.inside _ mem)
        have next : q.requests[q.served]? = some s.request := by simp [Queue.requests, here]
        refine ⟨_, ?_, (if_neg untaken).symm⟩
        rw [Card.getElem?_serveAll, next, ← sound.card]
        rfl

/-! ## Waiting -/

/-- The outcome of a ticket is there: the request was answered, and nobody has got the outcome. -/
def Ready (q : Queue) (taken : List Nat) (ticket : Nat) : Prop :=
  ticket < q.served ∧ ticket ∉ taken

instance (q : Queue) (taken : List Nat) (ticket : Nat) : Decidable (q.Ready taken ticket) :=
  inferInstanceAs (Decidable (_ ∧ _))

theorem Sound.wait_of_ready (sound : q.Sound start taken) {ticket : Nat}
    (ready : q.Ready taken ticket) :
    ∃ s answer, q.sent[ticket]? = some s ∧ (start.serveAll q.requests).1[ticket]? = some answer ∧
      q.wait ticket = (some answer, { q with sent := q.sent.set ticket ⟨s.request, {}⟩ }) := by
  obtain ⟨early, untaken⟩ := ready
  have inside : ticket < q.sent.length := Nat.lt_of_lt_of_le early sound.served
  obtain ⟨s, here⟩ : ∃ s, q.sent[ticket]? = some s := ⟨_, List.getElem?_eq_getElem inside⟩
  obtain ⟨outcome, answer, state⟩ := sound.answered ticket s here early
  rw [if_neg untaken] at state
  refine ⟨s, _, here, answer, ?_⟩
  unfold Queue.wait
  rw [here]
  dsimp only [Sent.wait]
  rw [state]
  rfl

theorem Sound.wait_of_not_ready (sound : q.Sound start taken) {ticket : Nat}
    (ready : ¬ q.Ready taken ticket) : q.wait ticket = (none, q) := by
  unfold Queue.wait
  cases here : q.sent[ticket]? with
  | none => rfl
  | some s =>
    have same : s.wait = (none, s) := by
      obtain ⟨request, exchange⟩ := s
      unfold Sent.wait
      rcases Nat.lt_or_ge ticket q.served with early | late
      · obtain ⟨outcome, -, state⟩ := sound.answered ticket _ here early
        have gone : ticket ∈ taken := Decidable.not_not.1 fun untaken => ready ⟨early, untaken⟩
        rw [if_pos gone] at state
        dsimp only at state
        rw [state]
        rfl
      · have state := sound.pending ticket _ here late
        dsimp only at state
        rw [state]
        rfl
    dsimp only
    rw [same]
    obtain ⟨inside, there⟩ := List.getElem?_eq_some_iff.1 here
    rw [← there, List.set_getElem_self inside]

theorem Sound.wait_fst (sound : q.Sound start taken) (ticket : Nat) :
    (q.wait ticket).1 =
      if ticket < q.served ∧ ticket ∉ taken then (start.serveAll q.requests).1[ticket]?
      else none := by
  by_cases ready : q.Ready taken ticket
  · obtain ⟨s, answer, -, there, waited⟩ := sound.wait_of_ready ready
    rw [waited, there]
    exact (if_pos ready).symm
  · rw [sound.wait_of_not_ready ready]
    exact (if_neg ready).symm

theorem Sound.wait (sound : q.Sound start taken) (ticket : Nat) :
    (q.wait ticket).2.Sound start
      (taken ++ if q.Ready taken ticket then [ticket] else []) := by
  by_cases ready : q.Ready taken ticket
  · rw [if_pos ready]
    obtain ⟨early, untaken⟩ := ready
    have requests := q.requests_wait ticket
    obtain ⟨s, answer, here, -, waited⟩ := sound.wait_of_ready ⟨early, untaken⟩
    rw [waited] at requests ⊢
    have inside : ticket < q.sent.length := (List.getElem?_eq_some_iff.1 here).1
    refine ⟨?_, ?_, ?_, fun other mem => ?_, fun other s' there late => ?_,
      fun other s' there early' => ?_⟩
    · simpa using sound.served
    · rw [requests]
      exact sound.card
    · exact List.nodup_append.2 ⟨sound.once, by simp, fun a mem b single => by
        rw [List.mem_singleton.1 single]
        rintro rfl
        exact untaken mem⟩
    · rcases List.mem_append.1 mem with old | new
      · exact sound.inside other old
      · rw [List.mem_singleton.1 new]
        exact early
    · have late : q.served ≤ other := late
      rw [List.getElem?_set_ne (by omega)] at there
      exact sound.pending other s' there late
    · rw [requests]
      by_cases same : other = ticket
      · subst same
        rw [List.getElem?_set_self inside] at there
        cases there
        obtain ⟨outcome, answer, -⟩ := sound.answered other s here early
        exact ⟨outcome, answer, (if_pos (by simp)).symm⟩
      · rw [List.getElem?_set_ne (Ne.symm same)] at there
        simpa [same] using sound.answered other s' there early'
  · rw [if_neg ready, List.append_nil, sound.wait_of_not_ready ready]
    exact sound

/-! ## Runs -/

theorem Sound.move (sound : q.Sound start taken) (m : Move) :
    (q.move m).2.Sound start (taken ++ (q.move m).1.toList.map (·.ticket)) ∧
      ∀ d ∈ (q.move m).1, (start.serveAll q.requests).1[d.ticket]? = some d.answer := by
  cases m with
  | send request =>
    exact ⟨(List.append_nil taken).symm ▸ sound.send request, nofun⟩
  | serve => exact ⟨(List.append_nil taken).symm ▸ sound.serveNext, nofun⟩
  | wait ticket =>
    have later := sound.wait ticket
    unfold Queue.move
    dsimp only
    by_cases ready : q.Ready taken ticket
    · obtain ⟨s, answer, -, there, waited⟩ := sound.wait_of_ready ready
      rw [if_pos ready] at later
      rw [waited] at later ⊢
      refine ⟨later, fun d given => ?_⟩
      cases given
      exact there
    · rw [if_neg ready] at later
      rw [sound.wait_of_not_ready ready] at later ⊢
      exact ⟨later, nofun⟩

/-- Every outcome that was given is the one in the order of requests, and none was given twice. -/
theorem Sound.run (sound : q.Sound start taken) (moves : List Move) :
    (q.run moves).2.Sound start (taken ++ (q.run moves).1.map (·.ticket)) ∧
      ∀ d ∈ (q.run moves).1,
        (start.serveAll (q.run moves).2.requests).1[d.ticket]? = some d.answer := by
  induction moves generalizing q taken with
  | nil => exact ⟨(List.append_nil taken).symm ▸ sound, nofun⟩
  | cons m rest ih =>
    obtain ⟨next, given⟩ := sound.move m
    obtain ⟨later, rest_given⟩ := ih next
    rw [run_cons]
    refine ⟨?_, fun d mem => ?_⟩
    · simpa using later
    · rcases List.mem_append.1 mem with now | then_
      · have answer := given d (Option.mem_toList.1 now)
        -- the requests that are sent from here on come behind it
        have inside := (List.getElem?_eq_some_iff.1 answer).1
        have requests := requests_run q (m :: rest)
        rw [run_cons] at requests
        rw [requests, getElem?_serveAll_append (by simpa using inside)]
        exact answer
      · exact rest_given d then_

/-! ## Nothing is lost -/

theorem length_sent_serveNext (q : Queue) : q.serveNext.sent.length = q.sent.length := by
  rw [← length_requests, requests_serveNext, length_requests]

theorem served_serveNext (q : Queue) :
    q.serveNext.served = if q.served < q.sent.length then q.served + 1 else q.served := by
  unfold serveNext
  cases here : q.sent[q.served]? with
  | none =>
    have beyond := List.getElem?_eq_none_iff.1 here
    exact (if_neg (by omega)).symm
  | some s =>
    have inside := (List.getElem?_eq_some_iff.1 here).1
    exact (if_pos inside).symm

theorem run_serve (q : Queue) (room : q.served ≤ q.sent.length) (n : Nat) :
    (q.run (List.replicate n .serve)).1 = [] ∧
      (q.run (List.replicate n .serve)).2.served = min (q.served + n) q.sent.length := by
  induction n generalizing q with
  | zero => exact ⟨rfl, by simp; omega⟩
  | succ n ih =>
    have served := q.served_serveNext
    have length := q.length_sent_serveNext
    obtain ⟨none, all⟩ := ih q.serveNext (by split at served <;> omega)
    rw [List.replicate_succ, run_cons]
    refine ⟨none, ?_⟩
    show (q.serveNext.run _).2.served = _
    rw [all, length]
    split at served <;> omega

@[simp] theorem served_wait (q : Queue) (ticket : Nat) : (q.wait ticket).2.served = q.served := by
  unfold wait
  split <;> rfl

theorem served_run_wait (q : Queue) (order : List Nat) :
    (q.run (order.map .wait)).2.served = q.served := by
  induction order generalizing q with
  | nil => rfl
  | cons first rest ih => exact (ih (q.move (.wait first)).2).trans (q.served_wait first)

/-- After waits on some tickets each of these has been given its outcome if it was answered. -/
theorem Sound.run_wait (sound : q.Sound start taken) (order : List Nat) :
    ∀ ticket ∈ order, ticket < q.served →
      ticket ∈ taken ++ (q.run (order.map .wait)).1.map (·.ticket) := by
  induction order generalizing q taken with
  | nil => nofun
  | cons first rest ih =>
    intro ticket mem early
    obtain ⟨next, -⟩ := sound.move (.wait first)
    have served : (q.move (.wait first)).2.served = q.served := q.served_wait first
    rw [List.map_cons, run_cons, List.map_append, ← List.append_assoc]
    rcases List.mem_cons.1 mem with rfl | mem
    · refine List.mem_append_left _ ?_
      by_cases gone : ticket ∈ taken
      · exact List.mem_append_left _ gone
      · obtain ⟨s, answer, -, -, waited⟩ := sound.wait_of_ready ⟨early, gone⟩
        unfold Queue.move
        dsimp only
        rw [waited]
        simp
    · exact ih next ticket mem (served ▸ early)

/-- Once the card has had the time to answer and every ticket was waited on, in any order, every
outcome has been given and the card is the one that all requests leave. -/
theorem Sound.complete (sound : q.Sound start taken) {order : List Nat}
    (all : ∀ ticket < q.requests.length, ticket ∈ order) {rest : List Move}
    (shape : rest = List.replicate q.requests.length .serve ++ order.map .wait) :
    (taken ++ (q.run rest).1.map (·.ticket)).Perm (List.range q.requests.length) ∧
      (q.run rest).2.card = (start.serveAll q.requests).2 := by
  obtain ⟨silent, count⟩ := q.run_serve sound.served q.requests.length
  have answered := (sound.run (List.replicate q.requests.length .serve)).1
  have same := requests_run q (List.replicate q.requests.length .serve)
  rw [shape, run_append, silent]
  rw [silent] at answered
  generalize (q.run (List.replicate q.requests.length .serve)).2 = q' at answered count same ⊢
  have same : q'.requests = q.requests := by simpa [Move.requests] using same
  have served : q'.served = q.requests.length := by
    rw [count, length_requests]
    omega
  have answered : q'.Sound start taken := by simpa using answered
  have waited := (answered.run (order.map .wait)).1
  have kept := q'.served_run_wait order
  have unsent := requests_run q' (order.map .wait)
  have unsent : (q'.run (order.map .wait)).2.requests = q.requests := by
    rw [unsent, same]
    simp [Move.requests]
  refine ⟨?_, ?_⟩
  · refine (List.perm_ext_iff_of_nodup waited.once List.nodup_range).2 fun ticket => ?_
    rw [List.mem_range, ← served]
    exact ⟨fun mem => kept ▸ waited.inside ticket mem, fun early =>
      answered.run_wait order ticket (all ticket (served ▸ early)) early⟩
  · show (q'.run (order.map .wait)).2.card = _
    rw [waited.card, unsent, kept, served, List.take_length]

/-- A card that answers one request after the other loses none, repeats none and changes the order
of none, whatever the order of requests, answers and waits.

No ticket gets an outcome twice, and the outcome is the one that the card gives when it answers all
requests in the order in which they were sent. A wait gives it as soon as the request was answered,
if it was not given before, and when the card has answered and all tickets were waited on, in any
order, each of them has got its outcome.

Of the requests for an operation and a file the first ones fail for a fault, as many as there are
faults for them, and no other request does: it succeeds if its file is there and grants it. A
request that fails changes no file, and what one does that succeeds is its `Request.Effect`. No
request changes the set of files, the record length of a file or the number or lengths of its
records. -/
theorem serves_in_order (start : Card) (sized : start.WellSized) (moves : List Move) :
    let requests := Move.requests moves
    let answers := (start.serveAll requests).1
    let deliveries := (run { card := start } moves).1
    let q := (run { card := start } moves).2
    ((deliveries.map (·.ticket)).Nodup ∧
      (∀ d ∈ deliveries, answers[d.ticket]? = some d.answer) ∧
      (∀ ticket, (q.wait ticket).1 =
        if ticket < q.served ∧ ticket ∉ deliveries.map (·.ticket) then answers[ticket]? else none) ∧
      q.served ≤ requests.length ∧ q.card = (start.serveAll (requests.take q.served)).2 ∧
      ∀ order : List Nat, (∀ ticket < requests.length, ticket ∈ order) →
        let rest := List.replicate requests.length Move.serve ++ order.map Move.wait
        ((run { card := start } (moves ++ rest)).1.map (·.ticket)).Perm
          (List.range requests.length) ∧
        (run { card := start } (moves ++ rest)).2.card = (start.serveAll requests).2) ∧
    ∀ i request, requests[i]? = some request →
      let before := (start.serveAll (requests.take i)).2
      let after := (start.serveAll (requests.take (i + 1))).2
      let struck := (requests.take i).countP (fun earlier => earlier.target = request.target)
        < start.faults.count request.target
      ∃ outcome, answers[i]? = some ⟨request, outcome⟩ ∧
        (∀ op id, outcome = .error (.transport (.injected op id)) ↔
          struck ∧ request.target = (op, id)) ∧
        (¬ struck → ((∃ reply, outcome = .ok reply) ↔
          ∃ file, before.file? request.file = some file ∧ request.GrantedBy file)) ∧
        (∀ e, outcome = .error e → after.files = before.files) ∧
        (∀ reply, outcome = .ok reply → request.Effect before after reply) ∧
        after.shapes = start.shapes := by
  intro requests answers deliveries q
  obtain ⟨sound, given⟩ := (sound_start start).run moves
  have sent : q.requests = requests := requests_run { card := start } moves
  rw [List.nil_append] at sound
  refine ⟨⟨sound.once, ?_, fun ticket => ?_, ?_, ?_, fun order all => ?_⟩, fun i request here =>
    Card.served_at sized here⟩
  · intro d mem
    show (start.serveAll requests).1[d.ticket]? = some d.answer
    rw [← sent]
    exact given d mem
  · show _ = if _ then (start.serveAll requests).1[ticket]? else none
    rw [← sent]
    exact sound.wait_fst ticket
  · rw [← sent, length_requests]
    exact sound.served
  · rw [← sent]
    exact sound.card
  · intro rest
    have shape : rest = List.replicate q.requests.length Move.serve ++ order.map Move.wait := by
      rw [sent]
    have complete := sound.complete (sent.symm ▸ all) shape
    rw [run_append, List.map_append, ← sent]
    exact complete

/-- A file with two records, and a fault that the next write to it meets. -/
def faultyCard : Card where
  files := .ofList [(.ofNat 0x4F11, ⟨2, [[0x01, 0x01], [0x02, 0x02]]⟩)]
  faults := [(.write, .ofNat 0x4F11)]

/-- Two writes, and a read that is sent before the second of them is answered. -/
def hastyMoves : List Move :=
  [.send (.write (.ofNat 0x4F11) 1 [0x03, 0x03]), .send (.write (.ofNat 0x4F11) 1 [0x04, 0x04]),
    .serve, .send (.readSubset (.ofNat 0x4F11) [2, 1, 2, 5]), .serve, .wait 1, .wait 2]

/-- The first write fails and the second is done; what its ticket gives is given already when the
read is answered. -/
theorem serves_in_order_hastyMoves :
    faultyCard.WellSized ∧
      (run { card := faultyCard } hastyMoves).1.map (·.ticket) = [1] ∧
      ((run { card := faultyCard } (hastyMoves ++ (List.replicate 3 Move.serve ++
        [2, 0, 1].map Move.wait))).1.map (·.ticket)).Perm [0, 1, 2] ∧
      (∃ outcome, (faultyCard.serveAll (Move.requests hastyMoves)).1[0]? =
        some ⟨.write (.ofNat 0x4F11) 1 [0x03, 0x03], outcome⟩ ∧
        outcome = .error (.transport (.injected .write (.ofNat 0x4F11)))) ∧
      ∃ outcome, (faultyCard.serveAll (Move.requests hastyMoves)).1[1]? =
        some ⟨.write (.ofNat 0x4F11) 1 [0x04, 0x04], outcome⟩ ∧ ∃ reply, outcome = .ok reply := by
  have sized : faultyCard.WellSized := by
    intro id file found
    have mem := SortedMap.mem_of_find? found
    have all : ∀ item ∈ faultyCard.files.items, item.2.WellSized := by
      unfold RecordFile.WellSized
      decide
    exact all _ mem
  obtain ⟨⟨-, -, -, -, -, complete⟩, each⟩ := serves_in_order faultyCard sized hastyMoves
  refine ⟨sized, by decide +kernel, (complete [2, 0, 1] (by decide)).1, ?_, ?_⟩
  · obtain ⟨outcome, answer, struck, -⟩ := each 0 _ rfl
    exact ⟨outcome, answer, (struck _ _).2 ⟨by decide, rfl⟩⟩
  · obtain ⟨outcome, answer, -, granted, -⟩ := each 1 _ rfl
    exact ⟨outcome, answer, (granted (by decide)).2 ⟨_, rfl, rfl, by decide, by decide⟩⟩

end UsimPhonebook.Queue
