import UsimPhonebook.Proofs.Session.Invariant

/-! # What holds whatever happens to the card

Some properties of a block look at nothing but the reference table and what is held of the block.
If loading keeps one on every card, and so does every end of an edit (`Session.Endures`), then it
holds of every block of every session, whatever others write to the card between two commands
(`Session.Endures.despite`), and of course if nobody does (`Session.Endures.after`).
-/

namespace UsimPhonebook.Session

/-- The property holds of a block of which nothing was read. It is kept when the entries are
dropped, when the block is loaded, and when an entry of it is edited, whatever the card says. -/
structure Endures (P : Reference.Table → BlockState → Prop) : Prop where
  empty : ∀ table, P table {}
  invalidate : ∀ table b, P table b → P table b.invalidate
  load : ∀ table refs share (d : Desk), P table d.block →
    P table ((Desk.load refs table share).perform d).2.block
  edit : ∀ table refs kind offset old new (d : Desk) outcome d', offset < d.block.entryCount →
    Desk.Ended refs (table.linkage kind) kind offset old new d outcome d' →
    P table d.block → P table d'.block

/-- Every block of the session has the property, and is one of the table that is held. -/
structure Lasting (P : Reference.Table → BlockState → Prop) (s : Session) : Prop where
  shaped : s.Shaped
  upholds : s.Upholds fun table _ _ b => P table b

variable {P : Reference.Table → BlockState → Prop} {s : Session}

theorem Lasting.block (h : s.Lasting P) {i : Nat} {b : BlockState} (here : s.blocks[i]? = some b) :
    ∃ table refs, s.table = some table ∧ table.block? i = some refs ∧ P table b := by
  obtain ⟨table, refs, held, named⟩ := h.shaped.named here
  exact ⟨table, refs, held, named, h.upholds table i refs b held named here⟩

namespace Endures

theorem loads (h : Endures P) : Loads (fun _ => True) fun table _ _ b => P table b where
  keeps _ _ _ _ := trivial
  empty table _ _ := h.empty table
  invalidate table _ _ b := h.invalidate table b
  load table refs share d _ := h.load table refs share d

theorem start (_ : Endures P) (card : Card) (options : Options) :
    (start card options).Lasting P where
  shaped := rfl
  upholds := by
    intro table i refs b held
    cases held

theorem obey (h : Endures P) (lasting : s.Lasting P) (command : Command) :
    (s.obey command).2.Lasting P := by
  rcases s.continues_or_update command with continues | ⟨position, old, new, kind, rfl⟩
  · exact ⟨continues.shaped lasting.shaped, continues.upholds _ _ h.loads trivial lasting.upholds⟩
  · rcases obey_update_cases s position old new kind with
      ⟨e, refused, -⟩ | ⟨i, offset, table, refs, b, outcome, d', v, ended, performed⟩
    · rw [refused]
      exact lasting
    · rw [performed]
      refine ⟨lasting.shaped.withDesk i d', .withDesk v.held v.named ?_ ?_⟩
      · exact fun j refs' b' named' here' _ => lasting.upholds table j refs' b' v.held named' here'
      · exact h.edit table refs kind offset old new ⟨s.channel, b⟩ outcome d' v.inside ended
          (v.upheld lasting.upholds)

theorem onCard (_ : Endures P) (lasting : s.Lasting P) (f : Card → Card) :
    (s.onCard f).Lasting P where
  shaped := lasting.shaped
  upholds table i refs b held named here := lasting.upholds table i refs b held named here

/-- Every block has the property, whatever happened to the card between the commands. -/
theorem despite (h : Endures P) (card : Card) (options : Options) (incidents : List Incident) :
    ((Session.start card options).despite incidents).Lasting P :=
  despite_invariant (motive := Lasting P) (fun _ command lasting => h.obey lasting command)
    (fun _ card lasting => h.onCard lasting fun _ => card) (h.start card options) incidents

theorem after (h : Endures P) (card : Card) (options : Options) (events : List Event) :
    ((Session.start card options).after events).Lasting P :=
  after_invariant (fun s event lasting => by
    cases event with
    | command command => exact h.obey lasting command
    | fault op file => exact h.onCard lasting (·.failNext op file)) (h.start card options) events

end Endures

/-- Whatever happened to the card, there is a block for each one of the table that is held. -/
theorem shaped_despite (card : Card) (options : Options) (incidents : List Incident) :
    ((start card options).despite incidents).Shaped := by
  have any : Endures fun _ _ => True :=
    ⟨fun _ => trivial, fun _ _ _ => trivial, fun _ _ _ _ _ => trivial,
      fun _ _ _ _ _ _ _ _ _ _ _ _ => trivial⟩
  exact (any.despite card options incidents).shaped

end UsimPhonebook.Session
