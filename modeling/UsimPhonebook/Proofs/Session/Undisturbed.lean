import UsimPhonebook.Proofs.Session.Invariant
import UsimPhonebook.Proofs.Session.Stages
import Mathlib.Data.List.Basic

/-! # Where no fault strikes

A fault that strikes is used up, and no request adds one. So if as many faults are pending after
some work as before it, none of them has struck, and the work went as it would have gone without
them (`Action.Undisturbed`). Loading is work of this kind, of a block (`Desk.Congruence.load`) and
of a session (`Session.undisturbed_load`).
-/

namespace UsimPhonebook

namespace Action

variable {σ φ α β : Type} {faults : σ → List φ} {Like : σ → σ → Prop}

/-- The action adds no fault. Where it uses none up it gives the same from a state that is like the
one it starts from, and ends in a state that is like the one it ends in. -/
structure Undisturbed (faults : σ → List φ) (Like : σ → σ → Prop) (a : Action σ α) : Prop where
  fewer : ∀ s, (faults (a.perform s).2).Sublist (faults s)
  like : ∀ s s', Like s s' → faults (a.perform s).2 = faults s →
    (a.perform s').1 = (a.perform s).1 ∧ Like (a.perform s).2 (a.perform s').2

namespace Undisturbed

theorem look {x : σ → Except Error α} (same : ∀ s s', Like s s' → x s' = x s) :
    (Action.of fun s => (x s, s)).Undisturbed faults Like where
  fewer _ := List.Sublist.refl _
  like s s' h _ := ⟨same s s' h, h⟩

theorem pure (x : α) : (Pure.pure x : Action σ α).Undisturbed faults Like :=
  look (x := fun _ => .ok x) fun _ _ _ => rfl

theorem lift (x : Except Error α) : (Action.lift x : Action σ α).Undisturbed faults Like :=
  look (x := fun _ => x) fun _ _ _ => rfl

theorem bind {a : Action σ α} {f : α → Action σ β} (h : a.Undisturbed faults Like)
    (h' : ∀ x, (f x).Undisturbed faults Like) : (a >>= f).Undisturbed faults Like where
  fewer s := by
    have first := h.fewer s
    rw [perform_bind]
    rcases done : a.perform s with ⟨e | x, s₁⟩
    · rw [done] at first
      exact first
    · rw [done] at first
      exact ((h' x).fewer s₁).trans first
  like s s' alike kept := by
    have first := h.fewer s
    have step := h.like s s' alike
    rw [perform_bind] at kept ⊢
    rw [perform_bind]
    rcases done : a.perform s with ⟨e | x, s₁⟩
    · rw [done] at kept step
      obtain ⟨same, alike⟩ := step kept
      rw [show a.perform s' = (.error e, (a.perform s').2) from Prod.ext same rfl]
      exact ⟨rfl, alike⟩
    · rw [done] at kept step first
      have last := (h' x).fewer s₁
      have between : faults s₁ = faults s :=
        first.antisymm (by rw [← kept]; exact last)
      obtain ⟨same, alike⟩ := step between
      rw [show a.perform s' = (.ok x, (a.perform s').2) from Prod.ext same rfl]
      exact (h' x).like s₁ _ alike (kept.trans between.symm)

theorem attempt {a : Action σ α} (h : a.Undisturbed faults Like) :
    a.attempt.Undisturbed faults Like where
  fewer s := by
    rw [perform_attempt]
    exact h.fewer s
  like s s' alike kept := by
    rw [perform_attempt] at kept ⊢
    obtain ⟨same, alike⟩ := h.like s s' alike kept
    rw [perform_attempt, same]
    exact ⟨rfl, alike⟩

theorem ignoringFailure {a : Action σ Unit} (h : a.Undisturbed faults Like) :
    a.ignoringFailure.Undisturbed faults Like where
  fewer := h.fewer
  like s s' alike kept := ⟨rfl, (h.like s s' alike kept).2⟩

end Undisturbed

end Action

/-! ## Requests -/

/-- Without a fault the files alone decide what comes of a request. -/
theorem Card.serve_congr {card card' : Card} {request : Request} (files : card'.files = card.files)
    (calm : (request.op, request.file) ∉ card.faults)
    (calm' : (request.op, request.file) ∉ card'.faults) :
    (card'.serve request).1 = (card.serve request).1 ∧
      (card'.serve request).2.files = (card.serve request).2.files ∧
      (card'.serve request).2.faults = card'.faults := by
  show (card'.respond request).1 = (card.respond request).1 ∧
    (card'.respond request).2.files = (card.respond request).2.files ∧
      (card'.respond request).2.faults = card'.faults
  have same : card'.file? request.file = card.file? request.file := by
    simp only [Card.file?, files]
  cases found : card.file? request.file with
  | none =>
    rw [respond_of_missing calm found, respond_of_missing calm' (same.trans found)]
    exact ⟨rfl, files, rfl⟩
  | some file =>
    rw [respond_of_file calm found, respond_of_file calm' (same.trans found), files]
    exact ⟨rfl, rfl, rfl⟩

namespace Desk

variable {α : Type}

/-- The action goes as without faults where none strikes. -/
abbrev Undisturbed (Like : Desk → Desk → Prop) (a : Action Desk α) : Prop :=
  Action.Undisturbed (fun d : Desk => d.card.faults) Like a

/-- Where no fault strikes, like desks give the same to a request and to a look at the block, and
are alike after it, and after any change of the block. -/
structure Congruence (Like : Desk → Desk → Prop) : Prop where
  ask : ∀ request, Undisturbed Like (.of fun d : Desk => d.ask request)
  current : Undisturbed Like current
  change : ∀ f, Undisturbed Like (change f)

theorem faults_ask (d : Desk) (request : Request) :
    (d.ask request).2.card.faults = d.card.faults.erase (request.op, request.file) := by
  by_cases calm : d.Calm request
  · rw [List.erase_of_not_mem calm, card_ask]
    exact (Card.serve_congr rfl calm calm).2.2
  · exact (ask_of_fault request calm).2

/-- A request that uses up no fault was struck by none. -/
theorem calm_of_kept {d : Desk} {request : Request}
    (kept : (d.ask request).2.card.faults = d.card.faults) : d.Calm request := fun fault => by
  rw [faults_ask] at kept
  have shorter := List.length_erase_of_mem fault
  have some := List.length_pos_of_mem fault
  rw [kept] at shorter
  omega

/-! ## Loading a block -/

namespace Congruence

variable {Like : Desk → Desk → Prop} (h : Congruence Like) (refs : Reference.Block)
  (table : Reference.Table) (share : Bool) (kind : FieldKind)

include h

theorem loadEntries : Undisturbed Like (loadEntries refs) := by
  have extend (es : List Entry) : Undisturbed Like (extendEntries refs es) := by
    unfold extendEntries
    cases extensionFile? refs es with
    | none => exact .pure es
    | some id =>
      refine .bind (.attempt (h.ask (.readAll id))) fun records => ?_
      cases records <;> exact .pure _
  exact .bind (.lift _) fun id => .bind (h.ask (.readAll id)) fun _ =>
    .bind (extend _) fun _ => h.change _

theorem loadPointers : Undisturbed Like (loadPointers refs share) := by
  refine .bind h.current fun b => ?_
  split
  · exact .pure true
  · cases refs.file? .iap with
    | none => exact .pure false
    | some id =>
      exact .bind (h.ask (.readSubset id b.numbers)) fun records =>
        .bind (h.change _) fun _ => .pure _

theorem loadField (linkage : Linkage) : Undisturbed Like (loadField refs linkage share kind) := by
  unfold Desk.loadField
  cases refs.file? (.ofKind kind) with
  | none => exact .pure ()
  | some id =>
    unfold loadRecords
    cases linkage with
    | type1 =>
      exact .bind h.current fun b =>
        .bind (h.ask (.readSubset id b.numbers)) fun _ => h.change _
    | type2 position =>
      refine .bind (h.loadPointers refs share) fun linked => ?_
      cases linked with
      | false => exact .pure ()
      | true => exact .bind (h.ask (.readAll id)) fun _ => h.change _

theorem completeField : Undisturbed Like (completeField refs table share kind) := by
  refine .bind h.current fun b => ?_
  split
  · exact .pure ()
  · exact .ignoringFailure (h.loadField refs share kind _)

theorem load : Undisturbed Like (load refs table share) :=
  .bind (h.loadEntries refs) fun _ =>
    .bind (h.completeField refs table share .email) fun _ =>
      .bind (h.completeField refs table share .anr) fun _ => h.change _

end Congruence

/-- The other desk is on a card with the same files and without faults, and holds the same. -/
structure Like (d d' : Desk) : Prop where
  block : d'.block = d.block
  files : d'.card.files = d.card.files
  calm : d'.card.faults = []

theorem congruence_like : Congruence Like where
  ask request :=
    { fewer := fun d => by
        rw [Action.perform_of, faults_ask]
        exact List.erase_sublist
      like := fun d d' alike kept => by
        have calm := calm_of_kept kept
        have calm' := calm_of_faultless alike.calm request
        obtain ⟨outcome, files, faults⟩ := Card.serve_congr alike.files calm calm'
        rw [Action.perform_of, Action.perform_of]
        refine ⟨?_, alike.block, ?_, ?_⟩
        · rw [ask_fst, ask_fst, outcome]
        · rw [card_ask, card_ask, files]
        · rw [card_ask, faults, alike.calm] }
  current := .look (x := fun d : Desk => .ok d.block) fun _ _ alike =>
    congrArg Except.ok alike.block
  change f :=
    { fewer := fun _ => List.Sublist.refl _
      like := fun _ _ alike _ => ⟨rfl, congrArg f alike.block, alike.files, alike.calm⟩ }

end Desk

/-! ## Faults and failures -/

/-- No request failed between the two cards. -/
def Card.Unfailing (card later : Card) : Prop := later.failures = card.failures

/-- Between the two cards no fault struck but where a request failed. -/
structure Card.Tells (card later : Card) : Prop where
  failures : card.failures ≤ later.failures
  faults : card.Unfailing later → later.faults = card.faults

theorem Card.Tells.refl (card : Card) : Card.Tells card card := ⟨Nat.le_refl _, fun _ => rfl⟩

theorem Card.Tells.trans {a b c : Card} (h : Card.Tells a b) (h' : Card.Tells b c) :
    Card.Tells a c where
  failures := Nat.le_trans h.failures h'.failures
  faults none := by
    have none : c.failures = a.failures := none
    have first := h.failures
    have second := h'.failures
    have early : a.Unfailing b := by
      unfold Card.Unfailing
      omega
    have late : b.Unfailing c := none.trans early.symm
    rw [h'.faults late, h.faults early]

namespace Desk

theorem tells_ask (d : Desk) (request : Request) : d.card.Tells (d.ask request).2.card where
  failures := (follows_ask d request).failures
  faults none := by
    cases outcome : (d.ask request).1 with
    | error e =>
      have failed := failures_ask_of_error outcome
      exact absurd none (Nat.ne_of_gt failed)
    | ok reply => exact faults_ask_of_ok outcome

variable {refs : Reference.Block} {table : Reference.Table} {share : Bool}

theorem tells_completeField (kind : FieldKind) (d : Desk) :
    d.card.Tells (complete refs table share kind d).card :=
  within_completeField (R := fun d d' : Desk => d.card.Tells d'.card) (fun _ => .refl _)
    (fun _ _ _ => .trans) (fun d request _ => tells_ask d request) (fun _ _ => .refl _)
    (fun _ _ => .refl _) d

theorem tells_load (d : Desk) : d.card.Tells ((load refs table share).perform d).2.card :=
  within_load (R := fun d d' : Desk => d.card.Tells d'.card) (fun _ => .refl _)
    (fun _ _ _ => .trans) (fun d request _ => tells_ask d request)
    (fun _ => within_loadPointers (fun _ => .refl _) (fun _ _ _ => .trans)
      (fun d request _ => tells_ask d request) fun _ _ => .refl _)
    (fun _ _ _ => .refl _) share d

end Desk

/-! ## Loading -/

namespace Session

variable {α : Type}

/-- The other session is on a card with the same files and without faults, and holds the same. -/
structure Like (s s' : Session) : Prop where
  options : s'.options = s.options
  table : s'.table = s.table
  absent : s'.absent = s.absent
  blocks : s'.blocks = s.blocks
  files : s'.card.files = s.card.files
  calm : s'.card.faults = []

/-- The action goes as without faults where none strikes. -/
abbrev Undisturbed (a : Action Session α) : Prop :=
  Action.Undisturbed (fun s : Session => s.card.faults) Like a

theorem Like.desk {s s' : Session} (h : s.Like s') (b : BlockState) :
    Desk.Like ⟨s.channel, b⟩ ⟨s'.channel, b⟩ := ⟨rfl, h.files, h.calm⟩

theorem undisturbed_readTable : Undisturbed readTable where
  fewer s := by
    have asked := (Desk.congruence_like.ask (.readAll s.options.referenceFile)).fewer
      ⟨s.channel, {}⟩
    rw [Action.perform_of, Desk.ask] at asked
    unfold readTable
    rw [Action.perform_of]
    rcases done : s.channel.ask (.readAll s.options.referenceFile) with ⟨_ | _ | _, channel⟩
    all_goals
      rw [done] at asked
      exact asked
  like s s' alike kept := by
    have asked := (Desk.congruence_like.ask (.readAll s.options.referenceFile)).like _ _
      (alike.desk {})
    rw [Action.perform_of, Action.perform_of, Desk.ask, Desk.ask] at asked
    unfold readTable at kept ⊢
    rw [Action.perform_of] at kept ⊢
    rw [Action.perform_of, alike.options]
    rcases done : s.channel.ask (.readAll s.options.referenceFile) with ⟨outcome, channel⟩
    rcases done' : s'.channel.ask (.readAll s.options.referenceFile) with ⟨outcome', channel'⟩
    rw [done] at kept asked
    rw [done'] at asked
    have kept : channel.card.faults = s.card.faults := by
      rcases outcome with _ | _ | _
      all_goals exact kept
    obtain ⟨same, -, files, calm⟩ := asked kept
    have same : outcome' = outcome := same
    subst same
    rcases outcome' with _ | _ | _
    · exact ⟨rfl, rfl, alike.table, alike.absent, alike.blocks, files, calm⟩
    · exact ⟨rfl, rfl, alike.table, rfl, alike.blocks, files, calm⟩
    · exact ⟨rfl, rfl, rfl, alike.absent, rfl, files, calm⟩

theorem undisturbed_loadTable : Undisturbed loadTable where
  fewer s := by
    rw [perform_loadTable]
    split
    · exact List.Sublist.refl _
    · split
      · exact List.Sublist.refl _
      · exact undisturbed_readTable.fewer s
  like s s' alike kept := by
    rw [perform_loadTable] at kept ⊢
    rw [perform_loadTable, alike.absent, alike.table]
    split
    · exact ⟨rfl, alike⟩
    · next there =>
      rw [if_neg there] at kept
      cases held : s.table with
      | some table => exact ⟨rfl, alike⟩
      | none =>
        rw [held] at kept
        exact undisturbed_readTable.like s s' alike kept

theorem undisturbed_visitBlock (table : Reference.Table) (i : Nat) :
    Undisturbed (.of (visitBlock table i)) where
  fewer s := by
    rw [Action.perform_of]
    unfold visitBlock
    cases s.blocks[i]? with
    | none => exact List.Sublist.refl _
    | some b =>
      dsimp only
      split
      · exact List.Sublist.refl _
      · cases table.block? i with
        | none => exact List.Sublist.refl _
        | some refs =>
          exact (Desk.congruence_like.load refs table s.options.sharePointers).fewer ⟨s.channel, b⟩
  like s s' alike kept := by
    rw [Action.perform_of] at kept ⊢
    rw [Action.perform_of]
    unfold visitBlock at kept ⊢
    rw [alike.blocks, alike.options]
    cases here : s.blocks[i]? with
    | none => exact ⟨rfl, alike⟩
    | some b =>
      rw [here] at kept
      dsimp only at kept ⊢
      split
      · exact ⟨rfl, alike⟩
      · next unloaded =>
        rw [if_neg unloaded] at kept
        cases named : table.block? i with
        | none => exact ⟨rfl, alike⟩
        | some refs =>
          rw [named] at kept
          obtain ⟨same, block, files, calm⟩ :=
            (Desk.congruence_like.load refs table s.options.sharePointers).like _ _ (alike.desk b)
              kept
          refine ⟨same, alike.options, alike.table, alike.absent, ?_, files, calm⟩
          exact congrArg₂ (List.set · i ·) alike.blocks block

theorem undisturbed_loadBlock (i : Nat) : Undisturbed (loadBlock i) := by
  have same : loadBlock i = (loadTable >>= fun table => .of (visitBlock table i)) := by
    funext s
    have done := perform_loadBlock i s
    show (loadBlock i).perform s = (loadTable >>= fun table => .of (visitBlock table i)).perform s
    rw [done, Action.perform_bind]
    rcases loadTable.perform s with ⟨_ | _, _⟩ <;> rfl
  rw [same]
  exact .bind undisturbed_loadTable fun table => undisturbed_visitBlock table i

theorem undisturbed_loadBlocks (blocks : List Nat) : Undisturbed (loadBlocks blocks) := by
  induction blocks with
  | nil => exact .pure ()
  | cons i rest ih => exact .bind (.ignoringFailure (undisturbed_loadBlock i)) fun _ => ih

/-- Where no fault strikes it, a load gives what it gives without faults. -/
theorem undisturbed_load : Undisturbed load := by
  refine .bind undisturbed_loadTable fun table => .bind (undisturbed_loadBlocks _) fun _ => ?_
  refine .look (x := fun s : Session => .ok s.entries) fun s s' alike => ?_
  unfold entries
  rw [alike.blocks]

end Session

end UsimPhonebook
