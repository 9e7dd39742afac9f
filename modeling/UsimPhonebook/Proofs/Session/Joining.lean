import UsimPhonebook.Proofs.Session.Mirror

/-! # What joining achieves

`BlockState.Joined` says of a kind that every entry has the value to which the card links it, and
that the slots of these values, and no others, are in use. Joining a block that holds what is on
the card brings this about for every kind (`BlockState.joined_join`), and changes nothing but
values and flags (`BlockState.Mirrors.join`, `BlockState.strip_join`).
-/

namespace UsimPhonebook

/-- The entry without the values of its fields. -/
def Entry.strip (e : Entry) : Entry := (e.setValues .email []).setValues .anr []

namespace BlockState

/-- The values of a kind and the flags of its slots are as the card links them. -/
structure Joined (b : BlockState) (linkage : Linkage) (kind : FieldKind) (files : BlockFiles) :
    Prop where
  values : ∀ es offset e, b.entries = some es → es[offset]? = some e →
    e.values kind =
      if (b.store kind).isSome then ((files.value? linkage kind offset).map (·.2)).toList else []
  flags : ∀ es store i slot, b.entries = some es → b.store kind = some store →
    store.slots[i]? = some slot →
    (slot.used = true ↔
      ∃ offset value, offset < es.length ∧ files.value? linkage kind offset = some (i, value))

variable {b : BlockState} {table : Reference.Table} {files : BlockFiles} {kind other : FieldKind}
  {linkage : Linkage}

/-! ## One kind -/

theorem joinKind_of_none {es : List Entry} (loaded : b.entries = some es)
    (h : b.store kind = none) : b.joinKind kind linkage =
      { b with entries := some (es.map (·.setValues kind [])) } := by
  unfold joinKind
  rw [loaded, h]

/-- The slots with the values of a kind. -/
def slotsInUse (b : BlockState) (kind : FieldKind) (linkage : Linkage) (store : FieldStore)
    (count : Nat) : List Nat :=
  (List.range count).filterMap fun offset => (b.linkedValue? kind linkage store offset).map (·.1)

theorem joinKind_of_some {es : List Entry} {store : FieldStore} (loaded : b.entries = some es)
    (h : b.store kind = some store) : b.joinKind kind linkage =
      { b.setStore kind ((b.slotsInUse kind linkage store es.length).foldl .use store.release) with
        entries := some (es.zipIdx.map fun (entry, offset) => entry.setValues kind
          ((b.linkedValue? kind linkage store offset).map (·.2)).toList) } := by
  unfold joinKind
  rw [loaded, h]
  rfl

theorem joinKind_of_not_loaded (h : b.entries = none) : b.joinKind kind linkage = b := by
  unfold joinKind
  rw [h]

@[simp] theorem pointers_joinKind (b : BlockState) (kind : FieldKind) (linkage : Linkage) :
    (b.joinKind kind linkage).pointers = b.pointers := by
  unfold joinKind
  split
  · rfl
  · rfl
  · exact pointers_setStore ..

@[simp] theorem numbers_joinKind (b : BlockState) (kind : FieldKind) (linkage : Linkage) :
    (b.joinKind kind linkage).numbers = b.numbers := by
  unfold joinKind
  split
  · rfl
  · rfl
  · cases kind <;> rfl

@[simp] theorem store_with_entries (b : BlockState) (es : Option (List Entry)) (kind : FieldKind) :
    ({ b with entries := es } : BlockState).store kind = b.store kind := by
  cases kind <;> rfl

/-- The entries after a kind was joined: as many, and each with other values of this kind. -/
theorem entry?_joinKind {es : List Entry} (loaded : b.entries = some es) (kind : FieldKind)
    (linkage : Linkage) :
    ∃ es', (b.joinKind kind linkage).entries = some es' ∧ es'.length = es.length ∧
      ∀ offset : Nat, ∃ values, es'[offset]? = es[offset]?.map (·.setValues kind values) := by
  cases kept : b.store kind with
  | none =>
    rw [joinKind_of_none loaded kept]
    refine ⟨_, rfl, List.length_map .., fun offset => ⟨[], ?_⟩⟩
    rw [List.getElem?_map]
  | some store =>
    rw [joinKind_of_some loaded kept]
    refine ⟨_, rfl, by simp, fun offset =>
      ⟨((b.linkedValue? kind linkage store offset).map (·.2)).toList, ?_⟩⟩
    rw [List.getElem?_map, List.getElem?_zipIdx, Nat.zero_add]
    cases es[offset]? with
    | none => rfl
    | some e => rfl

theorem store_joinKind (b : BlockState) (kind : FieldKind) (linkage : Linkage)
    (other : FieldKind) :
    ((b.joinKind kind linkage).store other).map (·.records) = (b.store other).map (·.records) ∧
      (other ≠ kind → (b.joinKind kind linkage).store other = b.store other) := by
  cases loaded : b.entries with
  | none => rw [joinKind_of_not_loaded loaded]; exact ⟨rfl, fun _ => rfl⟩
  | some es =>
    cases kept : b.store kind with
    | none =>
      rw [joinKind_of_none loaded kept, store_with_entries]
      exact ⟨rfl, fun _ => rfl⟩
    | some store =>
      rw [joinKind_of_some loaded kept, store_with_entries]
      refine ⟨?_, fun ne => store_setStore_of_ne b ne _⟩
      by_cases same : other = kind
      · subst same
        rw [store_setStore_self, kept]
        simp only [Option.map_some, FieldStore.records_foldl_use, FieldStore.records_release]
      · rw [store_setStore_of_ne b same]

theorem isSome_store_joinKind (b : BlockState) (kind : FieldKind) (linkage : Linkage)
    (other : FieldKind) :
    ((b.joinKind kind linkage).store other).isSome = (b.store other).isSome := by
  have same := congrArg Option.isSome (store_joinKind b kind linkage other).1
  rwa [Option.isSome_map, Option.isSome_map] at same

theorem Mirrors.joinKind (h : b.Mirrors table files) (kind : FieldKind) (linkage : Linkage) :
    (b.joinKind kind linkage).Mirrors table files where
  entries es' h' := by
    rw [numbers_joinKind]
    cases loaded : b.entries with
    | none =>
      rw [joinKind_of_not_loaded loaded, loaded] at h'
      cases h'
    | some es =>
      obtain ⟨es'', same, length, -⟩ := entry?_joinKind loaded kind linkage
      rw [same] at h'
      cases h'
      rw [length]
      exact h.entries es loaded
  pointers := by
    rw [pointers_joinKind]
    exact h.pointers
  stored other store kept := by
    have records := (store_joinKind b kind linkage other).1
    rw [kept] at records
    obtain ⟨old, kept', same⟩ := Option.map_eq_some_iff.1 records.symm
    have same : old.records = store.records := same
    rw [← same]
    exact h.stored other old kept'
  linked other t held := by
    rw [pointers_joinKind]
    rw [isSome_store_joinKind] at held
    exact h.linked other t held

/-- A kind of which records are held after joining was held before. -/
theorem exists_of_store_joinKind {store' : FieldStore}
    (kept : (b.joinKind kind linkage).store other = some store') :
    ∃ store, b.store other = some store ∧ store.records = store'.records := by
  have records := (store_joinKind b kind linkage other).1
  rw [kept] at records
  exact Option.map_eq_some_iff.1 records.symm

theorem values_joinKind {es es' : List Entry} {offset : Nat} {e : Entry}
    (loaded : b.entries = some es) (loaded' : (b.joinKind kind linkage).entries = some es')
    (here : es'[offset]? = some e) : offset < es.length ∧ e.values kind =
      ((b.store kind).bind fun store =>
        (b.linkedValue? kind linkage store offset).map (·.2)).toList := by
  obtain ⟨es'', same, length, -⟩ := entry?_joinKind loaded kind linkage
  rw [same] at loaded'
  cases loaded'
  refine ⟨length ▸ (List.getElem?_eq_some_iff.1 here).1, ?_⟩
  cases kept : b.store kind with
  | none =>
    rw [joinKind_of_none loaded kept] at same
    cases same
    rw [List.getElem?_map] at here
    obtain ⟨old, -, rfl⟩ := Option.map_eq_some_iff.1 here
    exact Entry.values_setValues_self old kind []
  | some store =>
    rw [joinKind_of_some loaded kept] at same
    cases same
    rw [List.getElem?_map, List.getElem?_zipIdx, Option.map_map] at here
    obtain ⟨old, there, rfl⟩ := Option.map_eq_some_iff.1 here
    show (old.setValues kind _).values kind = _
    rw [Entry.values_setValues_self, Nat.zero_add]
    rfl

/-- The slots in use are those to which an entry is linked with a value in them. -/
theorem used_joinKind {es : List Entry} {store store' : FieldStore} {i : Nat} {slot : FieldSlot}
    (loaded : b.entries = some es) (kept : b.store kind = some store)
    (kept' : (b.joinKind kind linkage).store kind = some store')
    (here : store'.slots[i]? = some slot) : slot.used = true ↔ ∃ offset value,
      offset < es.length ∧ b.linkedValue? kind linkage store offset = some (i, value) := by
  rw [joinKind_of_some loaded kept, store_with_entries, store_setStore_self] at kept'
  cases kept'
  rw [FieldStore.used_foldl_release here]
  unfold slotsInUse
  simp only [List.mem_filterMap, List.mem_range, Option.map_eq_some_iff, Prod.exists]
  constructor
  · rintro ⟨offset, inside, index, value, linked, rfl⟩
    exact ⟨offset, value, inside, linked⟩
  · rintro ⟨offset, value, inside, linked⟩
    exact ⟨offset, inside, i, value, linked, rfl⟩

/-- A kind that is joined has the values and the flags that the card says. -/
theorem Mirrors.joined_joinKind (h : b.Mirrors table files) (kind : FieldKind) :
    (b.joinKind kind (table.linkage kind)).Joined (table.linkage kind) kind files where
  values es' offset e h' here := by
    rw [isSome_store_joinKind]
    cases loaded : b.entries with
    | none =>
      rw [joinKind_of_not_loaded loaded, loaded] at h'
      cases h'
    | some es =>
      obtain ⟨inside, value⟩ := values_joinKind loaded h' here
      rw [(h.entries es loaded).2.1] at inside
      rw [value]
      cases kept : b.store kind with
      | none => rfl
      | some store =>
        rw [Option.bind_some, h.linkedValue?_eq kept inside]
        rfl
  flags es' store' i slot h' kept' here := by
    cases loaded : b.entries with
    | none =>
      rw [joinKind_of_not_loaded loaded, loaded] at h'
      cases h'
    | some es =>
      obtain ⟨es'', same, length, -⟩ := entry?_joinKind loaded kind (table.linkage kind)
      rw [same] at h'
      cases h'
      obtain ⟨store, kept, -⟩ := exists_of_store_joinKind kept'
      rw [used_joinKind loaded kept kept' here, length]
      refine exists_congr fun offset => exists_congr fun value => and_congr_right fun inside => ?_
      rw [(h.entries es loaded).2.1] at inside
      rw [h.linkedValue?_eq kept inside]

/-- Joining one kind leaves the other joined. -/
theorem Joined.joinKind_of_ne (h : b.Joined linkage kind files) (ne : kind ≠ other)
    (linkage' : Linkage) : (b.joinKind other linkage').Joined linkage kind files where
  values es' offset e h' here := by
    rw [isSome_store_joinKind]
    cases loaded : b.entries with
    | none =>
      rw [joinKind_of_not_loaded loaded, loaded] at h'
      cases h'
    | some es =>
      obtain ⟨es'', same, -, entry⟩ := entry?_joinKind loaded other linkage'
      rw [same] at h'
      cases h'
      obtain ⟨values, eq⟩ := entry offset
      rw [eq] at here
      obtain ⟨old, there, rfl⟩ := Option.map_eq_some_iff.1 here
      rw [Entry.values_setValues_of_ne old ne]
      exact h.values es offset old loaded there
  flags es' store i slot h' kept here := by
    rw [(store_joinKind b other linkage' kind).2 ne] at kept
    cases loaded : b.entries with
    | none =>
      rw [joinKind_of_not_loaded loaded, loaded] at h'
      cases h'
    | some es =>
      obtain ⟨es'', same, length, -⟩ := entry?_joinKind loaded other linkage'
      rw [same] at h'
      cases h'
      rw [length]
      exact h.flags es store i slot loaded kept here

/-! ## Every kind -/

theorem join_eq (b : BlockState) (table : Reference.Table) :
    b.join table = (b.joinKind .email table.email).joinKind .anr table.anr := rfl

theorem Mirrors.join (h : b.Mirrors table files) : (b.join table).Mirrors table files := by
  rw [join_eq]
  exact (h.joinKind .email _).joinKind .anr _

theorem joined_join (h : b.Mirrors table files) (kind : FieldKind) :
    (b.join table).Joined (table.linkage kind) kind files := by
  rw [join_eq]
  cases kind with
  | email => exact (h.joined_joinKind .email).joinKind_of_ne (by decide) _
  | anr => exact (h.joinKind .email _).joined_joinKind .anr

theorem isSome_store_join (b : BlockState) (table : Reference.Table) (kind : FieldKind) :
    ((b.join table).store kind).isSome = (b.store kind).isSome := by
  rw [join_eq, isSome_store_joinKind, isSome_store_joinKind]

@[simp] theorem strip_setValues (e : Entry) (kind : FieldKind) (values : List Text) :
    (e.setValues kind values).strip = e.strip := by
  cases kind <;> rfl

theorem strip_joinKind {es : List Entry} (loaded : b.entries = some es) (kind : FieldKind)
    (linkage : Linkage) :
    ∃ es', (b.joinKind kind linkage).entries = some es' ∧
      es'.map Entry.strip = es.map Entry.strip := by
  obtain ⟨es', same, -, entry⟩ := entry?_joinKind loaded kind linkage
  refine ⟨es', same, ?_⟩
  apply List.ext_getElem?
  intro offset
  obtain ⟨values, eq⟩ := entry offset
  rw [List.getElem?_map, List.getElem?_map, eq]
  cases es[offset]? with
  | none => rfl
  | some e => exact congrArg some (strip_setValues e kind values)

/-- Joining changes no entry but for the values of its fields. -/
theorem strip_join {es : List Entry} (loaded : b.entries = some es) (table : Reference.Table) :
    ∃ es', (b.join table).entries = some es' ∧ es'.map Entry.strip = es.map Entry.strip := by
  rw [join_eq]
  obtain ⟨es', loaded', same⟩ := strip_joinKind loaded .email table.email
  obtain ⟨es'', loaded'', same'⟩ := strip_joinKind loaded' .anr table.anr
  exact ⟨es'', loaded'', same'.trans same⟩

end BlockState

end UsimPhonebook
