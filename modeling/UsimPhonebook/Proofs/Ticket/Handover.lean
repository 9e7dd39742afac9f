import UsimPhonebook.Ticket.Handover

/-! # One outcome for each ticket

Whatever turns the two threads take, the outcome is the one that the producer gave first, by
completing or by giving up (`Turn.given?`). The invariant of every run is `Handover.Sound`: until
the wait takes it the exchange holds that outcome and nothing else, and the consumer sleeps only
while there is none.

`Handover.one_outcome` says what each thread sees of it.
-/

namespace UsimPhonebook.Handover

variable {α : Type} {h : Handover α} {given : Option (Except Error α)}

/-- The wait has returned. -/
def Over (h : Handover α) : Prop := ∃ outcome, h.consumer = .returned outcome

/-- The producer has given this outcome, or none yet, and both threads are where that puts them. -/
structure Sound (given : Option (Except Error α)) (h : Handover α) : Prop where
  completer : h.exchange.completer = given.isNone
  producer : h.producer = .holding ↔ given = none
  /-- until it is taken the outcome is there -/
  kept : ¬ h.Over → h.exchange.ticket = true ∧ h.exchange.outcome = given
  taken : ∀ outcome, h.consumer = .returned outcome → given = some outcome
  asleep : h.consumer = .asleep → given = none

theorem sound_pending : (pending : Handover α).Sound none where
  completer := rfl
  producer := ⟨fun _ => rfl, fun _ => rfl⟩
  kept _ := ⟨rfl, rfl⟩
  taken _ returned := by cases returned
  asleep sleeping := by cases sleeping

/-! ## The producer -/

/-- A completer that was used up changes nothing when it is dropped. -/
theorem produce_drop_of_used (used : h.exchange.completer = false) : h.produce .drop = h := by
  have same : (h.exchange.step .drop).2 = h.exchange := by
    simp [Exchange.step, used]
  unfold produce
  rw [same]
  dsimp only
  have either : (h.exchange.outcome.isNone && h.exchange.outcome.isSome) = false := by
    cases h.exchange.outcome <;> rfl
  rw [either]
  rfl

theorem wake_eq_returned_iff {consumer : Consumer α} {outcome : Except Error α} :
    consumer.wake = .returned outcome ↔ consumer = .returned outcome := by
  cases consumer <;> simp [Consumer.wake]

theorem wake_ne_asleep (consumer : Consumer α) : consumer.wake ≠ .asleep := by
  cases consumer <;> simp [Consumer.wake]

theorem Sound.give (sound : h.Sound none) {outcome : Except Error α} {s : Exchange.Step α}
    (gives : h.exchange.step s =
      (.done, { h.exchange.deliver outcome with completer := false }))
    {producer : Producer} (left : producer ≠ .holding) :
    ({ h.produce s with producer } : Handover α).Sound (some outcome) := by
  -- a wait returns only what was given, and nothing was
  have open_ : ¬ h.Over := by
    rintro ⟨outcome, returned⟩
    cases sound.taken outcome returned
  obtain ⟨ticket, empty⟩ := sound.kept open_
  have woken : (h.produce s).consumer = h.consumer.wake := by
    unfold produce
    rw [gives, empty]
    simp [Exchange.deliver, empty]
  have exchange : (h.produce s).exchange = { h.exchange.deliver outcome with completer := false } :=
    congrArg Prod.snd gives
  refine ⟨?_, ?_, fun _ => ?_, fun other returned => ?_, fun sleeping => ?_⟩
  · show (h.produce s).exchange.completer = false
    rw [exchange]
  · exact ⟨fun holding => absurd holding left, nofun⟩
  · show (h.produce s).exchange.ticket = true ∧ (h.produce s).exchange.outcome = some outcome
    rw [exchange]
    exact ⟨ticket, by simp [Exchange.deliver, empty]⟩
  · have returned : (h.produce s).consumer = .returned other := returned
    rw [woken, wake_eq_returned_iff] at returned
    exact absurd ⟨other, returned⟩ open_
  · have sleeping : (h.produce s).consumer = .asleep := sleeping
    rw [woken] at sleeping
    exact absurd sleeping (wake_ne_asleep _)

theorem Sound.complete (sound : h.Sound given) (outcome : Except Error α) :
    (h.turn (.complete outcome)).Sound (given.or (some outcome)) := by
  cases given with
  | none =>
    have holding := sound.producer.2 rfl
    have held : h.exchange.completer = true := sound.completer
    unfold turn
    rw [holding]
    exact sound.give (by simp [Exchange.step, held]) nofun
  | some first =>
    have left : h.producer ≠ .holding := fun holding => by cases sound.producer.1 holding
    have same : h.turn (.complete outcome) = h := by
      unfold turn
      cases producer : h.producer with
      | holding => exact absurd producer left
      | leaving => rfl
      | gone => rfl
    rw [same]
    exact sound

theorem Sound.drop (sound : h.Sound given) :
    (h.turn .drop).Sound (given.or (some (.error (.transport .dropped)))) := by
  cases given with
  | none =>
    have holding := sound.producer.2 rfl
    have held : h.exchange.completer = true := sound.completer
    unfold turn
    rw [holding]
    exact sound.give (by simp [Exchange.step, held]) nofun
  | some first =>
    have used : h.exchange.completer = false := sound.completer
    unfold turn
    cases producer : h.producer with
    | holding => cases sound.producer.1 producer
    | gone => exact sound
    | leaving =>
      dsimp only
      rw [produce_drop_of_used used]
      have neither : Producer.gone = .holding ↔ some first = none := by simp
      exact ⟨sound.completer, neither, sound.kept, sound.taken, sound.asleep⟩

/-! ## The consumer -/

theorem Sound.move (sound : h.Sound given) {consumer : Consumer α} (open_ : ¬ h.Over)
    (here : ∀ outcome, consumer ≠ .returned outcome) (awake : consumer = .asleep → given = none) :
    ({ h with consumer } : Handover α).Sound given where
  completer := sound.completer
  producer := sound.producer
  kept _ := sound.kept open_
  taken outcome returned := absurd returned (here outcome)
  asleep := awake

theorem not_over_of_looking (looking : h.consumer = .looking) : ¬ h.Over := by
  rintro ⟨outcome, returned⟩
  rw [looking] at returned
  cases returned

theorem look_of_given {outcome : Except Error α} (sound : h.Sound (some outcome))
    (looking : h.consumer = .looking) : h.turn .look =
      { h with exchange := { h.exchange with ticket := false, outcome := none }
               consumer := .returned outcome } := by
  obtain ⟨ticket, holds⟩ := sound.kept (not_over_of_looking looking)
  unfold turn
  rw [looking]
  simp [Exchange.step, ticket, holds]

theorem look_of_none (sound : h.Sound none) (looking : h.consumer = .looking) :
    h.turn .look = { h with consumer := .asleep } := by
  obtain ⟨ticket, holds⟩ := sound.kept (not_over_of_looking looking)
  unfold turn
  rw [looking]
  simp [Exchange.step, ticket, holds]

theorem Sound.look (sound : h.Sound given) : (h.turn .look).Sound given := by
  by_cases looking : h.consumer = .looking
  · cases given with
    | none =>
      rw [look_of_none sound looking]
      exact sound.move (not_over_of_looking looking) nofun fun _ => rfl
    | some outcome =>
      rw [look_of_given sound looking]
      refine ⟨sound.completer, sound.producer, fun still => ?_, fun other returned => ?_, nofun⟩
      · exact absurd ⟨outcome, rfl⟩ still
      · cases returned
        rfl
  · have same : h.turn .look = h := by
      unfold turn
      cases consumer : h.consumer with
      | looking => exact absurd consumer looking
      | _ => rfl
    rw [same]
    exact sound

theorem Sound.wait (sound : h.Sound given) : (h.turn .wait).Sound given := by
  unfold turn
  cases consumer : h.consumer with
  | idle =>
    refine sound.move ?_ nofun nofun
    rintro ⟨outcome, returned⟩
    rw [consumer] at returned
    cases returned
  | _ => exact sound

theorem Sound.rouse (sound : h.Sound given) : (h.turn .rouse).Sound given where
  completer := sound.completer
  producer := sound.producer
  kept still := sound.kept fun ⟨outcome, returned⟩ =>
    still ⟨outcome, wake_eq_returned_iff.2 returned⟩
  taken outcome returned := sound.taken outcome (wake_eq_returned_iff.1 returned)
  asleep sleeping := absurd sleeping (wake_ne_asleep _)

/-! ## Runs -/

theorem Sound.turn (sound : h.Sound given) (t : Turn α) :
    (h.turn t).Sound (given.or t.outcome?) := by
  cases t with
  | complete outcome => exact sound.complete outcome
  | drop => exact sound.drop
  | poll => exact (Option.or_none (o := given)).symm ▸ sound
  | wait => exact (Option.or_none (o := given)).symm ▸ sound.wait
  | look => exact (Option.or_none (o := given)).symm ▸ sound.look
  | rouse => exact (Option.or_none (o := given)).symm ▸ sound.rouse

theorem Sound.run (sound : h.Sound given) (turns : List (Turn α)) :
    (h.run turns).Sound (given.or (Turn.given? turns)) := by
  induction turns generalizing h given with
  | nil => exact (Option.or_none (o := given)).symm ▸ sound
  | cons t rest ih =>
    have later := ih (sound.turn t)
    rw [Option.or_assoc] at later
    unfold Turn.given? at later ⊢
    rw [List.findSome?_cons]
    cases first : t.outcome? with
    | none => simpa [first] using later
    | some outcome => simpa [first] using later

theorem returned_turn {outcome : Except Error α} (returned : h.consumer = .returned outcome)
    (t : Turn α) : (h.turn t).consumer = .returned outcome := by
  have produced (s : Exchange.Step α) : (h.produce s).consumer = .returned outcome := by
    show (if _ then h.consumer.wake else h.consumer) = _
    rw [returned]
    split <;> rfl
  unfold turn
  cases t with
  | complete other =>
    dsimp only
    split
    · exact produced _
    · exact returned
  | drop =>
    dsimp only
    split
    · exact returned
    · exact produced _
  | poll => exact returned
  | wait => simp only [returned]
  | look => simp only [returned]
  | rouse => exact wake_eq_returned_iff.2 returned

theorem returned_run {outcome : Except Error α} (returned : h.consumer = .returned outcome)
    (turns : List (Turn α)) : (h.run turns).consumer = .returned outcome := by
  induction turns generalizing h with
  | nil => exact returned
  | cons t rest ih => exact ih (returned_turn returned t)

/-- Whatever turns the two threads take, the consumer gets the outcome that the producer gave first.

The wait returns this outcome and no other, not before it is given, and once for all; and if it is
given the wait returns as soon as the consumer looks. The consumer sleeps only while the completer
is held and nothing was given, so no wake-up is lost. To ask, at any time before the wait returns,
tells whether an outcome was given.

The drop that follows a completion leaves the exchange and the consumer as they are, and a ticket
that is ready is one whose completer has completed and was dropped. -/
theorem one_outcome (turns : List (Turn α)) :
    let h := (pending : Handover α).run turns
    let given := Turn.given? turns
    (∀ outcome, h.consumer = .returned outcome →
      given = some outcome ∧ ∀ more, (h.run more).consumer = .returned outcome) ∧
    (∀ outcome, given = some outcome →
      (h.consumer = .idle → ((h.turn .wait).turn .look).consumer = .returned outcome) ∧
      (h.consumer = .looking → (h.turn .look).consumer = .returned outcome)) ∧
    (h.consumer = .asleep → given = none ∧ h.exchange.completer = true) ∧
    (¬ h.Over → (h.exchange.step .poll).1 = .polled given.isSome) ∧
    (h.producer = .leaving → h.turn .drop = { h with producer := .gone }) ∧
    ∀ outcome, ready outcome = ((pending : Handover α).turn (.complete outcome)).turn .drop := by
  intro h given
  have sound : h.Sound given := by
    have run := (sound_pending (α := α)).run turns
    rwa [Option.none_or] at run
  have finds {outcome : Except Error α} (some : given = some outcome) {h' : Handover α}
      (sound' : h'.Sound given) (looking : h'.consumer = .looking) :
      (h'.turn .look).consumer = .returned outcome := by
    rw [look_of_given (some ▸ sound') looking]
  refine ⟨fun outcome returned => ⟨sound.taken outcome returned, returned_run returned⟩,
    fun outcome some => ⟨fun idle => ?_, finds some sound⟩, fun sleeping => ?_, fun still => ?_,
    fun leaving => ?_, fun outcome => rfl⟩
  · refine finds some sound.wait ?_
    unfold turn
    rw [idle]
  · have none := sound.asleep sleeping
    refine ⟨none, ?_⟩
    rw [sound.completer, none]
    rfl
  · obtain ⟨ticket, holds⟩ := sound.kept still
    simp [Exchange.step, ticket, holds]
  · have used : h.exchange.completer = false := by
      rw [sound.completer, Option.isNone_eq_false_iff, Option.isSome_iff_ne_none]
      intro none
      rw [sound.producer.2 none] at leaving
      cases leaving
    unfold turn
    rw [leaving]
    dsimp only
    rw [produce_drop_of_used used]

/-- A consumer that fell asleep before the outcome came. -/
theorem one_outcome_after_sleep :
    let h := (pending : Handover Nat).run [.wait, .look, .poll, .complete (.ok 7), .drop]
    h.consumer = .looking ∧ (h.turn .look).consumer = .returned (.ok 7) :=
  ⟨rfl, ((one_outcome [.wait, .look, .poll, .complete (.ok 7), .drop]).2.1 (.ok 7) rfl).2 rfl⟩

end UsimPhonebook.Handover
