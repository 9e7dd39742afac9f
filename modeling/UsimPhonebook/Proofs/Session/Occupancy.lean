import UsimPhonebook.Proofs.Field.Codec
import UsimPhonebook.Proofs.Session.Endurance
import UsimPhonebook.Proofs.Session.Linking
import UsimPhonebook.Proofs.Session.Stages

/-! # What the flags of a store tell

A slot whose flag is set holds a value. Under positional linkage a flag is set exactly if the slot
holds a value and there is an entry to have it, and the entry has it then
(`BlockState.Tallied`).

Three rules write flags: joining sets them by the values that entries are linked to
(`BlockState.tallied_join`), writing a slot sets its flag by the bytes of the record, and slots that
a store gains on the way are free (`BlockState.Tallied.edited`). They agree because a record that is
written is blank exactly if it reads back as no value. None of them asks what is on the card, so
that the flags are right whatever others write to it (`Session.flags_despite`).
-/

namespace UsimPhonebook

/-- Two lists have as many elements of two sorts if they have them at the same places. -/
theorem countP_eq_of_getElem? {α β : Type} {p : α → Bool} {q : β → Bool} {xs : List α}
    {ys : List β} (h : ∀ i : Nat, (xs[i]?).any p = (ys[i]?).any q) : xs.countP p = ys.countP q := by
  induction xs generalizing ys with
  | nil =>
    symm
    rw [List.countP_nil, List.countP_eq_zero]
    intro y member
    obtain ⟨i, here⟩ := List.getElem?_of_mem member
    have none := h i
    rw [here] at none
    exact Bool.eq_false_iff.1 none.symm
  | cons x xs ih =>
    have first := h 0
    cases ys with
    | nil =>
      have rest : xs.countP p = ([] : List β).countP q := ih fun i => h (i + 1)
      rw [List.countP_cons, show p x = false from first, rest]
      rfl
    | cons y ys =>
      rw [List.countP_cons, List.countP_cons, show p x = q y from first, ih fun i => h (i + 1)]

namespace BlockState

/-- The flags of a kind are right: a slot in use holds a value, and of values that belong to the
entries by position exactly those slots are in use whose entry is there and has the value. -/
structure Tallied (b : BlockState) (linkage : Linkage) (kind : FieldKind) : Prop where
  honest : ∀ (store : FieldStore) (i : Nat) (slot : FieldSlot), b.store kind = some store →
    store.slots[i]? = some slot → slot.used = true → kind.decode slot.record ≠ []
  exact : linkage = .type1 → ∀ (es : List Entry) (store : FieldStore) (i : Nat) (slot : FieldSlot),
    b.entries = some es → b.store kind = some store → store.slots[i]? = some slot →
    (slot.used = true ↔ i < es.length ∧ kind.decode slot.record ≠ [])
  values : linkage = .type1 → ∀ (es : List Entry) (store : FieldStore) (offset : Nat) (e : Entry),
    b.entries = some es → b.store kind = some store → es[offset]? = some e →
    e.values kind = (storedValue? kind store offset).toList

variable {b b' : BlockState} {kind other : FieldKind} {linkage : Linkage} {es : List Entry}

theorem storedValue?_of_slot {store : FieldStore} {i : Nat} {slot : FieldSlot}
    (here : store.slots[i]? = some slot) : storedValue? kind store i =
      if kind.decode slot.record = [] then none else some (kind.decode slot.record) := by
  unfold storedValue? FieldStore.record?
  rw [here]
  rfl

theorem storedValue?_of_missing {store : FieldStore} {i : Nat} (missing : store.slots[i]? = none) :
    storedValue? kind store i = none := by
  unfold storedValue? FieldStore.record?
  rw [missing]
  rfl

theorem storedValue?_eq_of_records {store store' : FieldStore}
    (same : store'.records = store.records) (i : Nat) :
    storedValue? kind store' i = storedValue? kind store i := by
  unfold storedValue?
  rw [FieldStore.record?_eq, FieldStore.record?_eq, same]

/-- The blank slots that a store gains hold no value. -/
theorem storedValue?_put_of_ne {store : FieldStore} {index i : Nat} (ne : i ≠ index)
    (record : Bytes) :
    storedValue? kind (store.put index record) i = storedValue? kind store i := by
  cases here : (store.put index record).slots[i]? with
  | none =>
    have missing : store.slots[i]? = none := by
      rw [List.getElem?_eq_none_iff] at here ⊢
      refine Nat.le_trans ?_ here
      unfold FieldStore.put
      split
      · exact Nat.le_of_eq List.length_set.symm
      · simp only [List.length_append]
        omega
    rw [storedValue?_of_missing here, storedValue?_of_missing missing]
  | some slot =>
    rcases FieldStore.slot_put_cases here with ⟨same, -⟩ | ⟨-, old⟩ | ⟨-, missing, rfl⟩
    · exact absurd same ne
    · rw [storedValue?_of_slot here, storedValue?_of_slot old]
    · rw [storedValue?_of_slot here, storedValue?_of_missing missing,
        if_pos (FieldKind.decode_blank kind _)]

theorem linkedValue?_positional (b : BlockState) (kind : FieldKind) (store : FieldStore)
    (offset : Nat) : b.linkedValue? kind .type1 store offset =
      (storedValue? kind store offset).map fun value => (offset, value) := rfl

/-! ## Blocks of which little is held -/

theorem tallied_empty (linkage : Linkage) (kind : FieldKind) :
    ({} : BlockState).Tallied linkage kind where
  honest store i slot kept := by cases kind <;> cases kept
  exact _ es store i slot loaded := by cases loaded
  values _ es store offset e loaded := by cases loaded

theorem Tallied.invalidate (h : b.Tallied linkage kind) : b.invalidate.Tallied linkage kind where
  honest store i slot kept := h.honest store i slot (by cases kind <;> exact kept)
  exact _ es store i slot loaded := by cases loaded
  values _ es store offset e loaded := by cases loaded

/-! ## Joining -/

theorem ne_nil_of_storedValue? {store : FieldStore} {i : Nat} {slot : FieldSlot} {value : Text}
    (here : store.slots[i]? = some slot) (stored : storedValue? kind store i = some value) :
    kind.decode slot.record ≠ [] := by
  intro empty
  rw [storedValue?_of_slot here, if_pos empty] at stored
  cases stored

theorem tallied_joinKind (loaded : b.entries = some es) (kind : FieldKind) (linkage : Linkage) :
    (b.joinKind kind linkage).Tallied linkage kind where
  honest store' i slot kept' here used := by
    obtain ⟨store, kept, records⟩ := exists_of_store_joinKind kept'
    obtain ⟨offset, value, -, linked⟩ := (used_joinKind loaded kept kept' here).1 used
    unfold linkedValue? at linked
    cases index : b.linkedSlot? linkage offset with
    | none =>
      rw [index] at linked
      cases linked
    | some index' =>
      rw [index] at linked
      obtain ⟨value', stored, same⟩ := Option.map_eq_some_iff.1 linked
      cases same
      exact ne_nil_of_storedValue? here ((storedValue?_eq_of_records records.symm i).trans stored)
  exact positional es' store' i slot loaded' kept' here := by
    subst positional
    obtain ⟨store, kept, records⟩ := exists_of_store_joinKind kept'
    obtain ⟨es'', same, length, -⟩ := entry?_joinKind loaded kind .type1
    rw [same] at loaded'
    cases loaded'
    have value : storedValue? kind store' i = storedValue? kind store i :=
      storedValue?_eq_of_records records.symm i
    rw [used_joinKind loaded kept kept' here, length]
    simp only [linkedValue?_positional]
    constructor
    · rintro ⟨offset, text, inside, linked⟩
      obtain ⟨text', stored, same⟩ := Option.map_eq_some_iff.1 linked
      cases same
      exact ⟨inside, ne_nil_of_storedValue? here (value.trans stored)⟩
    · rintro ⟨inside, some⟩
      refine ⟨i, kind.decode slot.record, inside, ?_⟩
      rw [← value, storedValue?_of_slot here, if_neg some]
      rfl
  values positional es' store' offset e loaded' kept' here := by
    subst positional
    obtain ⟨store, kept, records⟩ := exists_of_store_joinKind kept'
    rw [(values_joinKind loaded loaded' here).2, kept, Option.bind_some, linkedValue?_positional,
      Option.map_map, storedValue?_eq_of_records records.symm]
    cases storedValue? kind store offset <;> rfl

/-- The property is about the entries' values and the store of the kind alone. -/
theorem Tallied.congr (h : b.Tallied linkage kind) (stores : b'.store kind = b.store kind)
    (entries : ∀ es', b'.entries = some es' → ∃ es, b.entries = some es ∧
      es'.length = es.length ∧ ∀ (offset : Nat) (e' : Entry), es'[offset]? = some e' →
        ∃ e : Entry, es[offset]? = some e ∧ e'.values kind = e.values kind) :
    b'.Tallied linkage kind where
  honest store i slot kept := h.honest store i slot (stores ▸ kept)
  exact positional es' store i slot loaded kept here := by
    obtain ⟨es, loaded, length, -⟩ := entries es' loaded
    rw [length]
    exact h.exact positional es store i slot loaded (stores ▸ kept) here
  values positional es' store offset e' loaded kept here := by
    obtain ⟨es, loaded, -, entry⟩ := entries es' loaded
    obtain ⟨e, here, same⟩ := entry offset e' here
    rw [same]
    exact h.values positional es store offset e loaded (stores ▸ kept) here

theorem Tallied.joinKind_of_ne (h : b.Tallied linkage kind) (ne : kind ≠ other)
    (linkage' : Linkage) : (b.joinKind other linkage').Tallied linkage kind := by
  refine h.congr ((store_joinKind b other linkage' kind).2 ne) fun es' loaded' => ?_
  cases loaded : b.entries with
  | none =>
    rw [joinKind_of_not_loaded loaded, loaded] at loaded'
    cases loaded'
  | some es =>
    obtain ⟨es'', same, length, entry⟩ := entry?_joinKind loaded other linkage'
    rw [same] at loaded'
    cases loaded'
    refine ⟨es, rfl, length, fun offset e' here => ?_⟩
    obtain ⟨values, eq⟩ := entry offset
    rw [eq] at here
    obtain ⟨e, there, rfl⟩ := Option.map_eq_some_iff.1 here
    exact ⟨e, there, Entry.values_setValues_of_ne e ne values⟩

theorem tallied_join (loaded : b.entries = some es) (table : Reference.Table) (kind : FieldKind) :
    (b.join table).Tallied (table.linkage kind) kind := by
  rw [join_eq]
  obtain ⟨es', loaded', -⟩ := entry?_joinKind loaded .email table.email
  cases kind with
  | email => exact (tallied_joinKind loaded .email _).joinKind_of_ne (by decide) _
  | anr => exact tallied_joinKind loaded' .anr _

/-! ## Editing -/

/-- A record that is blank exactly if it reads back as no value, as are those that are written. -/
def Legible (kind : FieldKind) (record : Bytes) : Prop :=
  Bytes.isBlank record = true ↔ kind.decode record = []

theorem Legible.used_written {record : Bytes} (legible : Legible kind record) :
    (FieldStore.written record).used = true ↔ kind.decode record ≠ [] := by
  unfold FieldStore.written
  rw [Bool.not_eq_true', Bool.eq_false_iff]
  exact not_congr legible

section

variable {slot offset : Nat} {record : Bytes}

theorem Tallied.setPointer (h : b.Tallied linkage kind) (offset : Nat) (record : Bytes) :
    (b.setPointer offset record).Tallied linkage kind :=
  h.congr (Desk.store_setPointer ..) fun es' loaded =>
    ⟨es', loaded, rfl, fun _ e' here => ⟨e', here, rfl⟩⟩

theorem Tallied.putRecord_of_ne (h : b.Tallied linkage kind) (ne : kind ≠ other) (slot : Nat)
    (record : Bytes) : (Desk.putRecord other slot record b).Tallied linkage kind := by
  refine h.congr (by rw [Desk.store_putRecord, if_neg ne]) fun es' loaded => ?_
  rw [Desk.entries_putRecord] at loaded
  exact ⟨es', loaded, rfl, fun _ e' here => ⟨e', here, rfl⟩⟩

theorem Tallied.applyValue_of_ne (h : b.Tallied linkage kind) (ne : kind ≠ other) (offset : Nat)
    (record : Bytes) : (Desk.applyValue other offset record b).Tallied linkage kind := by
  refine h.congr (Desk.store_applyValue ..) fun es' loaded' => ?_
  rw [Desk.entries_applyValue] at loaded'
  obtain ⟨es, loaded, rfl⟩ := Option.map_eq_some_iff.1 loaded'
  refine ⟨es, loaded, List.length_modify .., fun i e' here => ?_⟩
  rw [List.getElem?_modify] at here
  obtain ⟨e, there, rfl⟩ := Option.map_eq_some_iff.1 here
  refine ⟨e, there, ?_⟩
  split
  · exact Entry.values_setValues_of_ne e ne _
  · rfl

/-- A record that is written into the store of a kind keeps flags honest. -/
theorem honest_putRecord (h : b.Tallied linkage kind) (legible : Legible kind record)
    {store : FieldStore} {i : Nat} {here : FieldSlot}
    (kept : (Desk.putRecord kind slot record b).store kind = some store)
    (at' : store.slots[i]? = some here) (used : here.used = true) :
    kind.decode here.record ≠ [] := by
  rw [Desk.store_putRecord, if_pos rfl] at kept
  obtain ⟨old, kept', rfl⟩ := Option.map_eq_some_iff.1 kept
  rcases FieldStore.slot_put_cases at' with ⟨-, rfl⟩ | ⟨-, old'⟩ | ⟨-, -, rfl⟩
  · exact legible.used_written.1 used
  · exact h.honest old i here kept' old' used
  · cases used

/-- Under index-pointer linkage nothing more is asked. -/
theorem Tallied.putRecord (h : b.Tallied linkage kind) (legible : Legible kind record)
    (pointed : linkage ≠ .type1) : (Desk.putRecord kind slot record b).Tallied linkage kind where
  honest _ _ _ := honest_putRecord h legible
  exact positional := absurd positional pointed
  values positional := absurd positional pointed

theorem Tallied.applyValue (h : b.Tallied linkage kind) (pointed : linkage ≠ .type1) (offset : Nat)
    (record : Bytes) : (Desk.applyValue kind offset record b).Tallied linkage kind where
  honest store i here kept := h.honest store i here (by rwa [Desk.store_applyValue] at kept)
  exact positional := absurd positional pointed
  values positional := absurd positional pointed

/-- Under positional linkage the record of an entry is written, and the entry gets its value. -/
theorem Tallied.rewritten (h : b.Tallied .type1 kind) (legible : Legible kind record)
    (inside : offset < b.entryCount) :
    (Desk.applyValue kind offset record
      (Desk.putRecord kind (offset + 1) record b)).Tallied .type1 kind where
  honest store i here kept := by
    rw [Desk.store_applyValue] at kept
    exact honest_putRecord h legible kept
  exact positional es' store i here loaded kept at' := by
    rw [Desk.store_applyValue, Desk.store_putRecord, if_pos rfl, Nat.add_sub_cancel] at kept
    obtain ⟨old, kept', rfl⟩ := Option.map_eq_some_iff.1 kept
    rw [Desk.entries_applyValue, Desk.entries_putRecord] at loaded
    obtain ⟨es, loaded', rfl⟩ := Option.map_eq_some_iff.1 loaded
    unfold entryCount at inside
    rw [loaded'] at inside
    rw [List.length_modify]
    rcases FieldStore.slot_put_cases at' with ⟨rfl, rfl⟩ | ⟨-, old'⟩ | ⟨-, -, rfl⟩
    · rw [legible.used_written]
      exact ⟨fun some => ⟨inside, some⟩, And.right⟩
    · exact h.exact rfl es old i here loaded' kept' old'
    · simp [FieldKind.decode_blank]
  values positional es' store i e loaded kept at' := by
    rw [Desk.store_applyValue, Desk.store_putRecord, if_pos rfl, Nat.add_sub_cancel] at kept
    obtain ⟨old, kept', rfl⟩ := Option.map_eq_some_iff.1 kept
    rw [Desk.entries_applyValue, Desk.entries_putRecord] at loaded
    obtain ⟨es, loaded', rfl⟩ := Option.map_eq_some_iff.1 loaded
    rw [List.getElem?_modify] at at'
    obtain ⟨e₀, there, rfl⟩ := Option.map_eq_some_iff.1 at'
    by_cases same : offset = i
    · subst same
      rw [if_pos rfl, storedValue?_of_slot (FieldStore.slot?_put ..)]
      show (e₀.setValues kind _).values kind = _
      rw [Entry.values_setValues_self]
      show _ = (if kind.decode record = [] then none else _).toList
      split <;> rfl
    · rw [if_neg same, storedValue?_put_of_ne (Ne.symm same)]
      exact h.values rfl es old i e₀ loaded' kept' there

end

/-- However an edit ends the flags of both kinds are right. -/
theorem Tallied.ended {table : Reference.Table} {refs : Reference.Block} {offset : Nat}
    {old new : Text} {d d' : Desk} {outcome : Except Error Unit}
    (h : ∀ kind, d.block.Tallied (table.linkage kind) kind) (inside : offset < d.block.entryCount)
    (ended : Desk.Ended refs (table.linkage kind) kind offset old new d outcome d')
    (other : FieldKind) : d'.block.Tallied (table.linkage other) other := by
  have legible {size : Geometry} {record : Bytes}
      (encoded : Desk.encodeField kind (table.linkage kind) offset size new = .ok record) :
      Legible kind record := by
    obtain ⟨-, decoded, blank⟩ := Desk.encodeField_spec encoded
    exact blank.trans decoded.symm
  cases ended with
  | refused e d' block _ _ =>
    rw [block]
    exact h other
  | halted id file slot record d₁ position e d' aim wrote pointed _ _ block _ _ =>
    rw [block, wrote.block]
    by_cases same : other = kind
    · subst same
      exact (h other).putRecord (legible aim.encoded) (by rw [pointed]; nofun)
    · exact (h other).putRecord_of_ne same slot record
  | settled id file slot record d₁ aim wrote _ =>
    rw [wrote.block]
    by_cases same : other = kind
    · subst same
      cases linkage : table.linkage other with
      | type1 =>
        have resolved := aim.resolved
        rw [linkage] at resolved
        cases resolved
        exact (linkage ▸ h other).rewritten (legible aim.encoded) inside
      | type2 position =>
        rw [← linkage]
        have pointed : table.linkage other ≠ .type1 := by rw [linkage]; nofun
        exact ((h other).putRecord (legible aim.encoded) pointed).applyValue pointed offset record
    · exact ((h other).putRecord_of_ne same slot record).applyValue_of_ne same offset record
  | relinked id file slot record d₁ position iap pointers pointer d₂ aim wrote pointed _ relinked =>
    rw [relinked.block, wrote.block]
    by_cases same : other = kind
    · subst same
      have pointed : table.linkage other ≠ .type1 := by rw [pointed]; nofun
      exact ((h other).putRecord (legible aim.encoded) pointed).setPointer offset pointer
        |>.applyValue pointed offset record
    · exact ((h other).putRecord_of_ne same slot record).setPointer offset pointer
        |>.applyValue_of_ne same offset record

/-! ## What a flag tells -/

section

variable {store : FieldStore} {i : Nat} (kept : b.store kind = some store)

include kept

theorem Tallied.value_of_flag (h : b.Tallied linkage kind) (used : store.flags[i]? = some true) :
    ∃ record, store.records[i]? = some record ∧ kind.decode record ≠ [] := by
  obtain ⟨slot, here, used⟩ := FieldStore.flag?_eq_some_true_iff.1 used
  exact ⟨slot.record, FieldStore.record?_eq_some_iff.2 ⟨slot, here, rfl⟩,
    h.honest store i slot kept here used⟩

theorem Tallied.flag_of_blank (h : b.Tallied linkage kind) {record : Bytes}
    (there : store.records[i]? = some record) (blank : Bytes.isBlank record = true) :
    store.flags[i]? = some false := by
  obtain ⟨slot, here, rfl⟩ := FieldStore.record?_eq_some_iff.1 there
  rw [FieldStore.flag?_eq, here, Option.map_some, Option.some.injEq, Bool.eq_false_iff]
  intro used
  refine h.honest store i slot kept here used ?_
  rw [Bytes.eq_blank_of_isBlank blank]
  exact FieldKind.decode_blank kind _

variable (h : b.Tallied .type1 kind) (loaded : b.entries = some es)

include h loaded

theorem Tallied.flag_iff : store.flags[i]? = some true ↔
    i < es.length ∧ ∃ record, store.records[i]? = some record ∧ kind.decode record ≠ [] := by
  constructor
  · intro used
    obtain ⟨slot, here, used'⟩ := FieldStore.flag?_eq_some_true_iff.1 used
    exact ⟨((h.exact rfl es store i slot loaded kept here).1 used').1, h.value_of_flag kept used⟩
  · rintro ⟨inside, record, there, some⟩
    obtain ⟨slot, here, rfl⟩ := FieldStore.record?_eq_some_iff.1 there
    exact FieldStore.flag?_eq_some_true_iff.2
      ⟨slot, here, (h.exact rfl es store i slot loaded kept here).2 ⟨inside, some⟩⟩

variable {e : Entry} (entry : es[i]? = some e)

include entry

theorem Tallied.values_of_flag (used : store.flags[i]? = some true) :
    ∃ record, store.records[i]? = some record ∧ e.values kind = [kind.decode record] := by
  obtain ⟨slot, here, used⟩ := FieldStore.flag?_eq_some_true_iff.1 used
  refine ⟨slot.record, FieldStore.record?_eq_some_iff.2 ⟨slot, here, rfl⟩, ?_⟩
  rw [h.values rfl es store i e loaded kept entry, storedValue?_of_slot here,
    if_neg (h.honest store i slot kept here used)]
  rfl

theorem Tallied.values_of_no_flag (unused : store.flags[i]? ≠ some true) : e.values kind = [] := by
  have inside := (List.getElem?_eq_some_iff.1 entry).1
  rw [h.values rfl es store i e loaded kept entry]
  cases here : store.slots[i]? with
  | none =>
    rw [storedValue?_of_missing here]
    rfl
  | some slot =>
    have empty : kind.decode slot.record = [] := Decidable.not_not.1 fun some =>
      unused ((h.flag_iff kept loaded).2
        ⟨inside, slot.record, FieldStore.record?_eq_some_iff.2 ⟨slot, here, rfl⟩, some⟩)
    rw [storedValue?_of_slot here, if_pos empty]
    rfl

end

/-! ## Free slots -/

/-- Under positional linkage the slot of an entry without a value is free. -/
theorem Tallied.free_of_valueless {offset : Nat} {store : FieldStore} {e : Entry}
    (tallied : b.Tallied .type1 kind) (loaded : b.entries.isSome)
    (stored : b.store kind = some store) (entry : b.entryAt? offset = some e)
    (none : e.values kind = []) (slot : FieldSlot) (here : store.slots[offset]? = some slot) :
    slot.used = false := by
  obtain ⟨es, loaded⟩ := Option.isSome_iff_exists.1 loaded
  have there : es[offset]? = some e := by
    unfold entryAt? at entry
    rwa [loaded] at entry
  refine Bool.eq_false_iff.2 fun used => ?_
  obtain ⟨record, -, value⟩ := tallied.values_of_flag stored loaded there
    (FieldStore.flag?_eq_some_true_iff.2 ⟨slot, here, used⟩)
  rw [none] at value
  cases value

/-- Under positional linkage the slots in use are as many as the entries with a value. -/
theorem Tallied.countP_used (h : b.Tallied .type1 kind) {store : FieldStore}
    (loaded : b.entries = some es) (kept : b.store kind = some store) :
    store.slots.countP (·.used) = es.countP fun e => !(e.values kind).isEmpty := by
  apply countP_eq_of_getElem?
  intro i
  by_cases used : store.flags[i]? = some true
  · obtain ⟨inside, -⟩ := (h.flag_iff kept loaded).1 used
    have entry := List.getElem?_eq_getElem inside
    obtain ⟨slot, here, yes⟩ := FieldStore.flag?_eq_some_true_iff.1 used
    obtain ⟨record, -, value⟩ := h.values_of_flag kept loaded entry used
    simp [here, yes, entry, value]
  · have unused : (store.slots[i]?).any (·.used) = false := by
      rw [FieldStore.flag?_eq] at used
      cases here : store.slots[i]? with
      | none => rfl
      | some slot => simpa [here] using used
    rw [unused]
    cases entry : es[i]? with
    | none => rfl
    | some e => simp [h.values_of_no_flag kept loaded entry used]

end BlockState

namespace Session

open BlockState

/-- The flags of every kind are right. -/
def AllTallied (table : Reference.Table) (b : BlockState) : Prop :=
  ∀ kind, b.Tallied (table.linkage kind) kind

theorem endures_allTallied : Endures AllTallied where
  empty table kind := tallied_empty (table.linkage kind) kind
  invalidate _ _ h kind := (h kind).invalidate
  load table refs share d h := by
    rcases Desk.load_ends refs table share d with
      ⟨e, d', failed, block⟩ | ⟨b, es, d', ok, block, loaded⟩
    · rw [failed]
      show AllTallied table d'.block
      rw [block]
      exact h
    · rw [ok]
      show AllTallied table d'.block
      rw [block]
      exact fun kind => tallied_join loaded table kind
  edit _ _ _ _ _ _ _ _ _ inside ended h := .ended h inside ended

/-- Whatever commands a session was given, and whatever happened to the card between them: there is
a flag for each record of a store; a slot whose flag is set holds a value, so that a blank one
counts as free. Under positional linkage the flag of a slot is set exactly if it holds a value and
the block has so many entries, an entry has the value of its slot if the flag is set and none
otherwise, and so each slot is either free or that of an entry with a value. -/
theorem flags_despite (card : Card) (options : Options) (incidents : List Incident) (i : Nat)
    (b : BlockState) (kind : FieldKind) (store : FieldStore) :
    let s := (start card options).despite incidents
    s.blocks[i]? = some b → b.store kind = some store →
    store.flags.length = store.records.length ∧
    (∀ index : Nat, store.flags[index]? = some true →
      ∃ record, store.records[index]? = some record ∧ kind.decode record ≠ []) ∧
    (∀ (index : Nat) (record : Bytes), store.records[index]? = some record →
      Bytes.isBlank record = true → store.flags[index]? = some false) ∧
    s.freeInBlock kind i = store.flags.count false ∧
    ∀ es, s.linkage kind = .type1 → b.entries = some es →
      (∀ index : Nat, store.flags[index]? = some true ↔ index < es.length ∧
        ∃ record, store.records[index]? = some record ∧ kind.decode record ≠ []) ∧
      (∀ (index : Nat) (e : Entry), es[index]? = some e →
        (store.flags[index]? = some true →
          ∃ record, store.records[index]? = some record ∧ e.values kind = [kind.decode record]) ∧
        (store.flags[index]? ≠ some true → e.values kind = [])) ∧
      s.freeInBlock kind i + es.countP (fun e => !(e.values kind).isEmpty) = store.size := by
  intro s here stored
  obtain ⟨table, refs, held, -, tallied⟩ :=
    (endures_allTallied.despite card options incidents).block here
  have tallied := tallied kind
  have free : s.freeInBlock kind i = store.freeCount := by
    unfold freeInBlock
    rw [here, Option.bind_some, stored]
  refine ⟨?_, fun index => tallied.value_of_flag stored,
    fun index record => tallied.flag_of_blank stored, free.trans store.freeCount_eq,
    fun es positional loaded => ?_⟩
  · rw [FieldStore.length_flags, FieldStore.length_records]
  · have linkage : table.linkage kind = .type1 := by
      unfold Session.linkage at positional
      rw [held] at positional
      exact positional
    rw [linkage] at tallied
    refine ⟨fun index => tallied.flag_iff stored loaded,
      fun index e there => ⟨tallied.values_of_flag stored loaded there,
        tallied.values_of_no_flag stored loaded there⟩, ?_⟩
    rw [free, ← tallied.countP_used loaded stored, FieldStore.freeCount_add_countP_used]

/-- A block of three entries, and one record for their emails. -/
def scantCard : Card where
  files := ⟨[
    (.ofNat 0x4F30, ⟨10, [[0xA8, 0x08, 0xC0, 0x02, 0x4F, 0x3A, 0xCA, 0x02, 0x4F, 0x50]]⟩),
    (.ofNat 0x4F3A, ⟨14, [Bytes.blank 14, Bytes.blank 14, Bytes.blank 14]⟩),
    (.ofNat 0x4F50, ⟨6, [[0x61, 0xFF, 0xFF, 0xFF, 0xFF, 0xFF]]⟩)]⟩

/-- When the card has got more records, the last entry gets a value. The store grows by two slots,
of which the first one is free. -/
theorem flags_scantCard :
    let grown := scantCard.insert (.ofNat 0x4F50) ⟨6, [Bytes.blank 6, Bytes.blank 6, Bytes.blank 6]⟩
    let s := (start scantCard {}).despite
      [.command .load, .card grown, .command (.update 2 [] ['c'] .email)]
    ∃ b es store, s.blocks[0]? = some b ∧ b.entries = some es ∧ b.store .email = some store ∧
      store.flags = [true, false, true] ∧
      s.freeInBlock .email 0 + es.countP (fun e => !(e.values .email).isEmpty) = store.size := by
  intro grown s
  obtain ⟨b, here⟩ : ∃ b, s.blocks[0]? = some b := Option.isSome_iff_exists.1 (by decide +kernel)
  have loaded : (s.blocks[0]?.bind (·.entries)).isSome := by decide +kernel
  have stored : (s.blocks[0]?.bind (·.store .email)).map (·.flags) = some [true, false, true] := by
    decide +kernel
  rw [here] at loaded stored
  obtain ⟨es, loaded⟩ := Option.isSome_iff_exists.1 loaded
  obtain ⟨store, stored, flags⟩ := Option.map_eq_some_iff.1 stored
  obtain ⟨-, -, -, -, positional⟩ := flags_despite scantCard {}
    [.command .load, .card grown, .command (.update 2 [] ['c'] .email)] 0 b .email store here stored
  exact ⟨b, es, store, here, loaded, stored, flags,
    (positional es (by decide +kernel) loaded).2.2⟩

end Session

end UsimPhonebook
