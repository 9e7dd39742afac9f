import UsimPhonebook.Checked.Session
import UsimPhonebook.Proofs.Session.Invariant

/-! # Work that does what an action does

Work does an action if it has an outcome, and that is the outcome of the action (`Work.Does`). What
the work asks of the session for this is that the size of each file of the card is a 64-bit machine
word (`Card.Measurable`), which every request leaves so (`Card.Measurable.serve`).

Work on a block does an action on the desk of this block, wherever there is such a block
(`Work.DoesAt`). The rules go by the way in which work is put together: `Work.DoesAt.bind` for one
step and then another, and a rule for each kind of step.
-/

namespace UsimPhonebook

namespace Session

theorem withDesk_withDesk (s : Session) (i : Nat) (d d' : Desk) :
    (s.withDesk i d).withDesk i d' = s.withDesk i d' := by
  unfold withDesk
  rw [List.set_set]

/-- To give a block back as it was, over another channel. -/
theorem withDesk_of_here {s : Session} {i : Nat} {b : BlockState} (here : s.blocks[i]? = some b)
    (channel : Channel) : s.withDesk i ⟨channel, b⟩ = { s with channel } := by
  obtain ⟨inside, rfl⟩ := List.getElem?_eq_some_iff.1 here
  unfold withDesk
  rw [List.set_getElem_self]

end Session

/-! ## Sizes -/

namespace Card

/-- The size of all records of a file together is a 64-bit machine word. -/
def Measurable (card : Card) : Prop :=
  ∀ id file, card.file? id = some file → file.recordLen * file.records.length < wordLimit

theorem geometry_answer (file : RecordFile) (request : Request) :
    (request.answer file).2.geometry = file.geometry := by
  by_cases kept : request.op ≠ .write ∨ ∃ e, (request.answer file).1 = .error e
  · rw [answer_snd kept]
  · obtain ⟨write, granted⟩ := not_or.1 kept
    cases request with
    | write id number data =>
      cases outcome : (Request.answer file (.write id number data)).1 with
      | error e => exact absurd ⟨e, outcome⟩ granted
      | ok u =>
        obtain ⟨len, low, high⟩ := granted_of_answer_write outcome
        rw [answer_write id len low high]
        simp [RecordFile.geometry, RecordFile.setRecord]
    | _ => exact (write fun same => by cases same).elim

theorem Measurable.serve {card : Card} (h : card.Measurable) (request : Request) :
    (card.serve request).2.Measurable := by
  intro id file' found'
  cases outcome : (card.serve request).1 with
  | error e =>
    rw [file?, files_serve card request (.inr ⟨e, outcome⟩)] at found'
    exact h id file' found'
  | ok reply =>
    obtain ⟨file, found, -, files⟩ := file_of_serve outcome
    rw [file?, files, SortedMap.find?_replace] at found'
    split at found'
    · rw [show card.files.find? request.file = some file from found] at found'
      cases found'
      have same := geometry_answer file request
      show (request.answer file).2.geometry.recordLen * (request.answer file).2.geometry.count < _
      rw [same]
      exact h request.file file found
    · exact h id file' found'

theorem measurable_failNext {card : Card} (op : Operation) (id : FileId) :
    (card.failNext op id).Measurable ↔ card.Measurable := Iff.rfl

end Card

namespace Channel

theorem measurable_ask {c : Channel} (h : c.card.Measurable) (request : Request) :
    (c.ask request).2.card.Measurable := by
  rw [card_ask]
  exact h.serve request

end Channel

namespace Checked

namespace Work

variable {α β : Type} {i : Nat} {s : Session}

/-! ## On a session -/

/-- The work has an outcome, that of the action, and leaves a card with measurable files. -/
def Does (w : Work α) (a : Action Session α) (s : Session) : Prop :=
  s.card.Measurable → w.perform s = some (a.perform s) ∧ (a.perform s).2.card.Measurable

theorem Does.bind {w : Work α} {a : Action Session α} {f : α → Work β} {g : α → Action Session β}
    (first : w.Does a s)
    (second : ∀ v s', a.perform s = (.ok v, s') → (f v).Does (g v) s') :
    (w >>= f).Does (a >>= g) s := by
  intro sized
  obtain ⟨done, sized⟩ := first sized
  rw [perform_bind, Action.perform_bind, done]
  rcases performed : a.perform s with ⟨e | v, s'⟩
  · rw [performed] at sized
    exact ⟨rfl, sized⟩
  · rw [performed] at sized
    exact second v s' performed sized

theorem Does.pure (v : α) : (Pure.pure v : Work α).Does (Pure.pure v) s := fun sized => ⟨rfl, sized⟩

theorem Does.throw (e : Error) :
    (MonadExcept.throw e : Work α).Does (MonadExcept.throw e) s := fun sized => ⟨rfl, sized⟩

theorem Does.get_bind {f : Session → Work α} {g : Session → Action Session α}
    (h : (f s).Does (g s) s) : (get >>= f).Does (get >>= g) s := by
  intro sized
  rw [perform_bind, Action.perform_bind]
  exact h sized

theorem Does.lift_bind {x : Except Error α} {f : α → Work β} {g : α → Action Session β}
    (rest : ∀ v, x = .ok v → (f v).Does (g v) s) :
    (Work.lift x >>= f).Does (Action.lift x >>= g) s := by
  intro sized
  rw [perform_bind, Action.perform_bind]
  cases x with
  | error e => exact ⟨rfl, sized⟩
  | ok v => exact rest v rfl sized

theorem Does.demand_bind {x : Option α} {v : α} (h : x = some v) {f : α → Work β}
    {a : Action Session β} (rest : (f v).Does a s) : (demand x >>= f).Does a s := by
  intro sized
  rw [perform_bind, h]
  exact rest sized

theorem Does.ignoringFailure {w : Work Unit} {a : Action Session Unit} (h : w.Does a s) :
    w.ignoringFailure.Does a.ignoringFailure s := by
  intro sized
  obtain ⟨done, sized⟩ := h sized
  refine ⟨?_, sized⟩
  unfold Work.ignoringFailure
  rw [perform_of, done]
  rfl

/-! ## On a block -/

/-- Wherever there is such a block, the work does the action on its desk. -/
def DoesAt (i : Nat) (w : Work α) (a : Action Desk α) : Prop :=
  ∀ s b, s.blocks[i]? = some b → w.Does (Session.atBlock i a) s

section Steps

variable {w : Work α} {a : Action Desk α} {f : α → Work β} {g : α → Action Desk β}

theorem doesAt_iff : DoesAt i w a ↔ ∀ s b, s.blocks[i]? = some b → s.card.Measurable →
    w.perform s = some ((a.perform ⟨s.channel, b⟩).1, s.withDesk i (a.perform ⟨s.channel, b⟩).2) ∧
      (a.perform ⟨s.channel, b⟩).2.card.Measurable := by
  unfold DoesAt Does
  refine forall_congr' fun s => forall_congr' fun b => forall_congr' fun here => ?_
  rw [Session.perform_atBlock here, Session.card_withDesk]

/-- What the desk is left with when nothing happens to it. -/
theorem doesAt_of_idle {outcome : Except Error α} (work : ∀ s, w.perform s = some (outcome, s))
    (action : ∀ d, a.perform d = (outcome, d)) : DoesAt i w a := by
  refine doesAt_iff.2 fun s b here sized => ?_
  rw [work, action, Session.withDesk_eq_self here]
  exact ⟨rfl, sized⟩

theorem DoesAt.pure (v : α) : DoesAt i (Pure.pure v) (Pure.pure v) :=
  doesAt_of_idle (fun _ => rfl) fun _ => rfl

/-- One step and then another: the first one leaves the block where it is. -/
theorem DoesAt.bind (first : DoesAt i w a) (second : ∀ v, DoesAt i (f v) (g v)) :
    DoesAt i (w >>= f) (a >>= g) := by
  rw [doesAt_iff] at first ⊢
  intro s b here sized
  obtain ⟨done, sized⟩ := first s b here sized
  rw [perform_bind, Action.perform_bind, done]
  rcases performed : a.perform ⟨s.channel, b⟩ with ⟨e | v, d⟩
  · rw [performed] at sized
    exact ⟨rfl, sized⟩
  · rw [performed] at sized
    -- the second step takes the block anew: it is in its place, as the first step left it
    have there := Session.getElem?_withDesk_self here d
    obtain ⟨done', sized'⟩ := doesAt_iff.1 (second v) (s.withDesk i d) d.block there sized
    rw [Session.withDesk_withDesk] at done'
    exact ⟨done', sized'⟩

/-- A check that is passed tells what the steps after it can rely on. -/
theorem DoesAt.lift_bind {x : Except Error α} (rest : ∀ v, x = .ok v → DoesAt i (f v) (g v)) :
    DoesAt i (Work.lift x >>= f) (Action.lift x >>= g) := by
  cases x with
  | error e =>
    exact doesAt_of_idle (fun s => perform_bind _ _ _) fun d => Action.perform_bind _ _ _
  | ok v =>
    refine doesAt_iff.2 fun s b here sized => ?_
    rw [perform_bind, Action.perform_bind]
    exact doesAt_iff.1 (rest v rfl) s b here sized

/-- A check that only the work makes is passed. -/
theorem DoesAt.passed {x : Except Error α} {v : α} (h : x = .ok v) {c : Action Desk β}
    (rest : DoesAt i (f v) c) : DoesAt i (Work.lift x >>= f) c := by
  refine doesAt_iff.2 fun s b here sized => ?_
  rw [perform_bind, h]
  exact doesAt_iff.1 rest s b here sized

/-- A computation whose accesses are all there goes on with its value. -/
theorem DoesAt.demand_bind {x : Option α} {v : α} (h : x = some v) {c : Action Desk β}
    (rest : DoesAt i (f v) c) : DoesAt i (demand x >>= f) c := by
  refine doesAt_iff.2 fun s b here sized => ?_
  rw [perform_bind, h]
  exact doesAt_iff.1 rest s b here sized

theorem DoesAt.demand {x : Option α} {v : α} (h : x = some v) :
    DoesAt i (Work.demand x) (Pure.pure v) := by
  subst h
  exact doesAt_of_idle (fun _ => rfl) fun _ => rfl

theorem DoesAt.ask {request : Request} {c : Action Desk request.Reply}
    (same : ∀ d, c.perform d = d.ask request) : DoesAt i (.ask request) c := by
  refine doesAt_iff.2 fun s b here sized => ?_
  rw [same]
  refine ⟨?_, Channel.measurable_ask sized request⟩
  rw [perform_ask, ← Session.withDesk_of_here here]
  rfl

theorem DoesAt.note (event : TrafficEvent) : DoesAt i (.note event) (Desk.note event) := by
  refine doesAt_iff.2 fun s b here sized => ?_
  rw [Desk.perform_note, Session.withDesk_of_here here, Desk.card_note]
  exact ⟨rfl, sized⟩

theorem perform_blockAt {b : BlockState} (here : s.blocks[i]? = some b) :
    (Work.blockAt i).perform s = some (.ok b, s) := by
  unfold Work.blockAt
  rw [perform_of, here]
  rfl

theorem look_again {f : BlockState → Work α} {c : Action Session α} {b : BlockState}
    (here : s.blocks[i]? = some b) (rest : (f b).Does c s) : (Work.blockAt i >>= f).Does c s := by
  intro sized
  rw [perform_bind, perform_blockAt here]
  exact rest sized

theorem DoesAt.look {f : BlockState → Work α} {g : BlockState → Action Desk α}
    (rest : ∀ s b, s.blocks[i]? = some b → (f b).Does (Session.atBlock i (g b)) s) :
    DoesAt i (Work.blockAt i >>= f) (Desk.current >>= g) := by
  intro s b here
  have same : (Session.atBlock i (Desk.current >>= g)).perform s =
      (Session.atBlock i (g b)).perform s := by
    rw [Session.perform_atBlock here, Session.perform_atBlock here, Action.perform_bind,
      Desk.perform_current]
  have found := look_again here (rest s b here)
  unfold Does at found ⊢
  rwa [same]

theorem DoesAt.blockAt : DoesAt i (.blockAt i) Desk.current := by
  refine doesAt_iff.2 fun s b here sized => ⟨?_, sized⟩
  rw [Desk.perform_current, Session.withDesk_eq_self here]
  exact perform_blockAt here

theorem DoesAt.change {t : BlockState → Option BlockState} {u : BlockState → BlockState}
    (h : ∀ b, t b = some (u b)) : DoesAt i (.change i t) (Desk.change u) := by
  refine doesAt_iff.2 fun s b here sized => ⟨?_, sized⟩
  have within := (List.getElem?_eq_some_iff.1 here).1
  unfold Work.change
  rw [perform_of, bind_of_eq_some here, bind_of_eq_some (h b),
    bind_of_eq_some (set?_of_lt within _)]
  rfl

theorem DoesAt.attempt (h : DoesAt i w a) : DoesAt i w.attempt a.attempt := by
  refine doesAt_iff.2 fun s b here sized => ?_
  obtain ⟨done, sized⟩ := doesAt_iff.1 h s b here sized
  rw [Action.perform_attempt]
  refine ⟨?_, sized⟩
  unfold Work.attempt
  rw [perform_of, done]
  rfl

theorem DoesAt.ignoringFailure {w : Work Unit} {a : Action Desk Unit} (h : DoesAt i w a) :
    DoesAt i w.ignoringFailure a.ignoringFailure := by
  refine doesAt_iff.2 fun s b here sized => ?_
  obtain ⟨done, sized⟩ := doesAt_iff.1 h s b here sized
  refine ⟨?_, sized⟩
  unfold Work.ignoringFailure
  rw [perform_of, done]
  rfl

end Steps

end Work

end Checked

end UsimPhonebook
