import UsimPhonebook.Proofs.Session.Loading

/-! # The stages of loading a block

A block is loaded in stages: its address records, the records of one kind of field after the other,
and the join (`Desk.perform_load`). Seeing to the records of a kind never fails
(`Desk.perform_completeField`) and leaves the entries as they are (`Desk.entries_complete`).

So loading fails and leaves the block as it is, or it ends in a join, whatever is on the card and
whatever was held (`Desk.load_ends`).
-/

namespace UsimPhonebook.Desk

variable (refs : Reference.Block) (table : Reference.Table) (share : Bool)

/-- The desk when the records of a kind were seen to. -/
def complete (kind : FieldKind) (d : Desk) : Desk :=
  ((completeField refs table share kind).perform d).2

/-- The desk at which seeing to the records of a kind starts, by the desk at which the address
records are read. -/
def atKind (d : Desk) : FieldKind → Desk
  | .email => d
  | .anr => complete refs table share .email d

variable {refs table share}

theorem perform_completeField (kind : FieldKind) (d : Desk) :
    (completeField refs table share kind).perform d =
      (.ok (), complete refs table share kind d) := by
  have never : ((completeField refs table share kind).perform d).1 = .ok () := by
    unfold completeField
    rw [Action.perform_bind, perform_current]
    dsimp only
    split <;> rfl
  exact Prod.ext never rfl

theorem perform_load (d : Desk) : (load refs table share).perform d =
    match (loadEntries refs).perform d with
    | (.error e, d) => (.error e, d)
    | (.ok _, d) =>
      let d := complete refs table share .anr (atKind refs table share d .anr)
      (.ok (), { d with block := d.block.join table }) := by
  unfold load
  rw [Action.perform_bind]
  rcases (loadEntries refs).perform d with ⟨e | u, d₁⟩
  · rfl
  · dsimp only
    rw [Action.perform_bind, perform_completeField]
    dsimp only
    rw [Action.perform_bind, perform_completeField]
    rfl

section

variable {R : Desk → Desk → Prop} (refl : ∀ d, R d d) (trans : ∀ a b c, R a b → R b c → R a c)
  (ask : ∀ (d : Desk) (request : Request), refs.Consults request → R d (d.ask request).2)
  (hold : ∀ records, (change (·.holdPointers records)).Within R)

include refl trans ask hold

/-- Seeing to the index-pointer records leads nowhere but where its requests lead, and to hold what
was read. -/
theorem within_loadPointers : (loadPointers refs share).Within R := by
  refine .bind trans refl fun b => ?_
  split
  · exact refl
  · cases named : refs.file? .iap with
    | none => exact refl
    | some id =>
      exact .bind trans (fun d => ask d _ (Reference.Block.consults_readSubset named b.numbers))
        fun records => .bind trans (hold records) fun _ => refl

theorem within_completeField {kind : FieldKind}
    (put : ∀ store, (change (·.setStore kind store)).Within R) :
    (completeField refs table share kind).Within R := by
  have field (linkage : Linkage) : (loadField refs linkage share kind).Within R := by
    unfold loadField
    cases named : refs.file? (.ofKind kind) with
    | none => exact refl
    | some id =>
      cases linkage with
      | type1 =>
        exact .bind trans refl fun b => .bind trans
          (fun d => ask d _ (Reference.Block.consults_readSubset named b.numbers)) fun _ => put _
      | type2 position =>
        refine .bind trans (within_loadPointers refl trans ask hold) fun linked => ?_
        cases linked with
        | false => exact refl
        | true =>
          exact .bind trans (fun d => ask d _ (Reference.Block.consults_readAll named))
            fun _ => put _
  refine .bind trans refl fun b => ?_
  split
  · exact refl
  · exact field _

end

theorem entries_complete (kind : FieldKind) (d : Desk) :
    (complete refs table share kind d).block.entries = d.block.entries :=
  within_completeField (R := fun d d' : Desk => d'.block.entries = d.block.entries)
    (fun _ => rfl) (fun _ _ _ h h' => h'.trans h) (fun _ _ _ => rfl) (fun _ _ => rfl)
    (fun store d => d.block.entries_setStore kind store) d

theorem store_complete_of_ne {kind other : FieldKind} (ne : other ≠ kind) (d : Desk) :
    (complete refs table share kind d).block.store other = d.block.store other :=
  within_completeField (R := fun d d' : Desk => d'.block.store other = d.block.store other)
    (fun _ => rfl) (fun _ _ _ h h' => h'.trans h) (fun _ _ _ => rfl)
    (fun records d => d.block.store_holdPointers records other)
    (fun store d => d.block.store_setStore_of_ne ne store) d

/-- Reading the address records fails and leaves the block as it is, or puts entries in place. -/
theorem loadEntries_ends (d : Desk) :
    (∃ e d', (loadEntries refs).perform d = (.error e, d') ∧ d'.block = d.block) ∨
    ∃ es d', (loadEntries refs).perform d = (.ok (), d') ∧ d'.block.entries = some es := by
  rcases loadEntries_cases refs d with
    ⟨e, d', failed, block, -⟩ | ⟨es, d', ok, block, -⟩
  · exact .inl ⟨e, d', failed, block⟩
  · exact .inr ⟨es, d', ok, by rw [block]⟩

theorem load_ends (refs : Reference.Block) (table : Reference.Table) (share : Bool) (d : Desk) :
    (∃ e d', (load refs table share).perform d = (.error e, d') ∧ d'.block = d.block) ∨
    ∃ (b : BlockState) (es : List Entry) (d' : Desk),
      (load refs table share).perform d = (.ok (), d') ∧ d'.block = b.join table ∧
      b.entries = some es := by
  rw [perform_load]
  rcases loadEntries_ends d with ⟨e, d', failed, block⟩ | ⟨es, d', ok, loaded⟩
  · rw [failed]
    exact .inl ⟨e, d', rfl, block⟩
  · rw [ok]
    refine .inr ⟨_, es, _, rfl, rfl, ?_⟩
    rw [entries_complete, atKind, entries_complete, loaded]

end UsimPhonebook.Desk
