import UsimPhonebook.Proofs.Session.Effect
import UsimPhonebook.Proofs.Session.Invariant

/-! # A block that is edited is as if it were joined anew

`Session.Agreed` says that a block has what loading it from its files would give it: the entries of
the address records, the values to which the card links them, every kind whose files are there, and
in use the slots of these values alone. Loading brings this about (`Session.loads_agreed`), and only
one block is like this (`Session.Agreed.eq`).

An edit that succeeds gives one entry one other value on the card (`Desk.Effect.value?_self`), and
does the same to the block (`Session.Agreed.edited`). An edit without any text is left out: it
empties the slot of an entry that goes on naming it.
-/

namespace UsimPhonebook

/-! ## Values on the card -/

namespace BlockFiles

variable {files files' : BlockFiles} {linkage : Linkage} {kind : FieldKind}
  {offset slot : Nat} {file : RecordFile} {record : Bytes}

theorem Edited.stored?_self (e : Edited linkage kind offset slot file record files files') :
    files'.stored? kind (slot - 1) =
      if kind.decode record = [] then none else some (kind.decode record) := by
  have there := e.record?_self
  rw [RecordFile.record?_eq e.low] at there
  unfold stored?
  rw [e.field, Option.bind_some, there]

theorem Edited.value?_self (e : Edited linkage kind offset slot file record files files')
    (linked : files'.linkedSlot? linkage offset = some (slot - 1)) :
    files'.value? linkage kind offset =
      if kind.decode record = [] then none else some (slot - 1, kind.decode record) := by
  unfold value?
  rw [linked]
  dsimp only
  rw [e.stored?_self]
  split <;> rfl

/-- The values in the other slots stay, and those of the other kind. -/
theorem Edited.stored?_of_ne (e : Edited linkage kind offset slot file record files files')
    {other : FieldKind} {index : Nat} (ne : other ≠ kind ∨ index ≠ slot - 1) :
    files'.stored? other index = files.stored? other index := by
  unfold stored?
  by_cases same : other = kind
  · subst same
    have apart : index + 1 ≠ slot := by
      have low := e.low
      rcases ne with ne | ne
      · exact absurd rfl ne
      · omega
    have there := e.record?_of_ne apart
    rw [RecordFile.record?_eq (by omega), RecordFile.record?_eq (by omega),
      Nat.add_sub_cancel] at there
    rw [e.field, e.found, Option.bind_some, Option.bind_some, there]
  · rw [e.others _ (fun h => same (FileTag.ofKind_injective h)) (by simp)]

/-- No links change but those of the kind and the entry that are edited. -/
theorem Edited.linkedSlot?_of_ne {table : Reference.Table}
    (e : Edited (table.linkage kind) kind offset slot file record files files')
    (apart : table.Apart) {other : FieldKind} {at' : Nat} (ne : other ≠ kind ∨ at' ≠ offset) :
    files'.linkedSlot? (table.linkage other) at' = files.linkedSlot? (table.linkage other) at' := by
  unfold linkedSlot?
  cases linkage : table.linkage other with
  | type1 => rfl
  | type2 position =>
    dsimp only
    rw [e.pointers position at' (ne.imp_left fun ne pointed =>
      ne (apart other kind position linkage pointed))]

theorem Edited.value?_of_ne {table : Reference.Table}
    (e : Edited (table.linkage kind) kind offset slot file record files files')
    (apart : table.Apart) {other : FieldKind} (ne : other ≠ kind) (at' : Nat) :
    files'.value? (table.linkage other) other at' =
      files.value? (table.linkage other) other at' := by
  unfold value?
  rw [e.linkedSlot?_of_ne apart (.inl ne)]
  cases files.linkedSlot? (table.linkage other) at' with
  | none => rfl
  | some index =>
    dsimp only
    rw [e.stored?_of_ne (.inl ne)]

theorem linkedSlot?_of_value? {index : Nat} {text : Text}
    (h : files.value? linkage kind offset = some (index, text)) :
    files.linkedSlot? linkage offset = some index := by
  unfold value? at h
  cases linked : files.linkedSlot? linkage offset with
  | none =>
    rw [linked] at h
    cases h
  | some index' =>
    rw [linked] at h
    obtain ⟨text', -, same⟩ := Option.map_eq_some_iff.1 h
    cases same
    rfl

/-- Whether the records of a kind can be read depends on which files are there, and on whether there
is an index-pointer record. -/
theorem Readable.of_geometry (h : files'.Readable linkage kind)
    (same : ∀ tag, (files' tag).map (·.geometry) = (files tag).map (·.geometry)) :
    files.Readable linkage kind where
  field := by
    have there := h.field
    rwa [← Option.isSome_map (f := RecordFile.geometry), same, Option.isSome_map] at there
  pointers t := by
    obtain ⟨records, read, some⟩ := h.pointers t
    obtain ⟨iap', found', rfl⟩ := Option.map_eq_some_iff.1 read
    have there := same .iap
    rw [found'] at there
    obtain ⟨iap, found, geometry⟩ := Option.map_eq_some_iff.1 there.symm
    have count : iap.records.length = iap'.records.length := congrArg Geometry.count geometry
    unfold perEntry
    rw [found]
    refine ⟨_, rfl, fun none => some ?_⟩
    have short := congrArg List.length none
    rw [List.length_take, List.length_nil] at short
    apply List.eq_nil_of_length_eq_zero
    rw [List.length_take]
    omega

end BlockFiles

namespace Desk

variable {table : Reference.Table} {refs : Reference.Block} {reference : FileId} {i : Nat}
  {kind : FieldKind} {offset : Nat} {old new : Text} {d d' : Desk} {slot : Nat}
  {file : RecordFile} {record : Bytes}

/-- Of all entries it is the one that is edited that may have its value in the slot. -/
theorem Effect.index_eq_iff {outcome : Except Error Unit}
    (effect : Effect table refs kind offset old new d d' outcome slot file record)
    {other index : Nat} (inside : other < (refs.on d.card.files).addressCount)
    (linked : (refs.on d.card.files).linkedSlot? (table.linkage kind) other = some index) :
    index = slot - 1 ↔ other = offset := by
  have low := effect.edited.low
  unfold BlockFiles.linkedSlot? at linked
  cases linkage : table.linkage kind with
  | type1 =>
    rw [linkage] at linked
    cases linked
    rw [effect.place linkage, Nat.add_sub_cancel]
  | type2 position =>
    rw [linkage] at linked
    obtain ⟨named, names, rfl⟩ := Option.map_eq_some_iff.1 linked
    have low' := (BlockFiles.range_of_slot? names).1
    constructor
    · intro same
      have same : named = slot := by omega
      subst same
      exact Classical.byContradiction fun ne =>
        effect.alone position other linkage inside ne names
    · rintro rfl
      rw [effect.was position named linkage names]

section

variable (effect : Effect table refs kind offset old new d d' (.ok ()) slot file record)

include effect

/-- After an edit that succeeds the card links the entry to the value that was put. -/
theorem Effect.value?_self (texts : ¬ (old = [] ∧ new = [])) :
    (refs.on d'.card.files).value? (table.linkage kind) kind offset =
      if new = [] then none else some (slot - 1, kind.decode record) := by
  have edited := effect.edited
  cases linkage : table.linkage kind with
  | type1 =>
    rw [linkage] at edited
    rw [edited.value?_self (by rw [effect.place linkage]; rfl)]
    simp only [effect.empty]
  | type2 position =>
    have names := effect.done rfl texts position linkage
    rw [linkage] at edited
    by_cases value : new = []
    · rw [if_pos value] at names ⊢
      unfold BlockFiles.value?
      rw [BlockFiles.linkedSlot?_type2, names]
      rfl
    · rw [if_neg value] at names
      rw [edited.value?_self (by rw [BlockFiles.linkedSlot?_type2, names]; rfl)]
      simp only [effect.empty]

/-- The other entries, and the other kind, keep their values. -/
theorem Effect.value?_of_ne (apart : table.Apart) {other : FieldKind} {at' : Nat}
    (ne : other ≠ kind ∨ at' ≠ offset) (inside : at' < (refs.on d.card.files).addressCount) :
    (refs.on d'.card.files).value? (table.linkage other) other at' =
      (refs.on d.card.files).value? (table.linkage other) other at' := by
  unfold BlockFiles.value?
  rw [effect.edited.linkedSlot?_of_ne apart ne]
  cases linked : (refs.on d.card.files).linkedSlot? (table.linkage other) at' with
  | none => rfl
  | some index =>
    dsimp only
    rw [effect.edited.stored?_of_ne]
    rcases ne with ne | ne
    · exact .inl ne
    · by_cases same : other = kind
      · subst same
        exact .inr (mt (effect.index_eq_iff inside linked).1 ne)
      · exact .inl same

end

end Desk

/-! ## Blocks as if joined anew -/

theorem Entry.ext_values {e e' : Entry} (strip : e.strip = e'.strip)
    (values : ∀ kind, e.values kind = e'.values kind) : e = e' := by
  have emails : e.emails = e'.emails := values .email
  have numbers : e.additionalNumbers = e'.additionalNumbers := values .anr
  cases e
  cases e'
  simp_all [Entry.strip, Entry.setValues]

namespace Session

/-- The block has what loading it from its files would give it. -/
structure Agreed (table : Reference.Table) (refs : Reference.Block) (files : BlockFiles)
    (b : BlockState) : Prop where
  mirrors : b.Mirrors table files
  joined : ∀ kind, b.Joined (table.linkage kind) kind files
  complete : b.entries.isSome → ∀ kind, files.Readable (table.linkage kind) kind →
    (b.store kind).isSome
  plain : ∀ es, b.entries = some es → ∃ base, files.plainEntries refs = some base ∧
    es.map Entry.strip = base.map Entry.strip

theorem agreed_of_not_loaded {table : Reference.Table} {refs : Reference.Block}
    {files : BlockFiles} {b : BlockState} (mirrors : b.Mirrors table files)
    (h : b.entries = none) : Agreed table refs files b := by
  refine ⟨mirrors, fun kind => ⟨?_, ?_⟩, ?_, ?_⟩
  · intro es offset e loaded
    rw [h] at loaded
    cases loaded
  · intro es store i slot loaded
    rw [h] at loaded
    cases loaded
  · intro loaded
    rw [h] at loaded
    cases loaded
  · intro es loaded
    rw [h] at loaded
    cases loaded

/-- On a card without faults loading brings the block in agreement with its files. -/
theorem loads_agreed : Loads (fun card => card.faults = []) Agreed where
  keeps _ _ reads calm := reads.faultless calm
  empty table refs files := agreed_of_not_loaded (BlockState.mirrors_empty table files) rfl
  invalidate table refs files b h := agreed_of_not_loaded h.mirrors.invalidate rfl
  load table refs share d calm h := by
    rcases Desk.load_cases h.mirrors share with
      ⟨e, d', failed, block, -, -⟩ | ⟨b, es, d', ok, block, -, mirrors, loaded, -, full⟩
    · rw [failed]
      show Agreed table refs _ d'.block
      rw [block]
      exact h
    · rw [ok]
      show Agreed table refs _ d'.block
      obtain ⟨plain, complete⟩ := full calm
      rw [block]
      refine ⟨mirrors.join, BlockState.joined_join mirrors, fun _ kind readable => ?_,
        fun es' loaded' => ⟨es, plain, ?_⟩⟩
      · rw [BlockState.isSome_store_join]
        exact complete kind readable
      · obtain ⟨es'', loaded'', same⟩ := BlockState.strip_join loaded table
        rw [loaded'] at loaded''
        cases loaded''
        exact same

variable {table : Reference.Table} {refs : Reference.Block} {files : BlockFiles} {b b' : BlockState}

theorem Agreed.readable (h : Agreed table refs files b) {kind : FieldKind}
    (held : (b.store kind).isSome) : files.Readable (table.linkage kind) kind where
  field := by
    obtain ⟨store, stored⟩ := Option.isSome_iff_exists.1 held
    obtain ⟨-, read⟩ := h.mirrors.stored kind store stored
    unfold BlockFiles.fieldRecords BlockFiles.perEntry at read
    cases linkage : table.linkage kind with
    | type1 =>
      rw [linkage] at read
      obtain ⟨file, found, -⟩ := Option.map_eq_some_iff.1 read
      rw [found]
      rfl
    | type2 position =>
      rw [linkage] at read
      obtain ⟨file, found, -⟩ := Option.map_eq_some_iff.1 read
      rw [found]
      rfl
  pointers t := by
    obtain ⟨records, kept⟩ := Option.isSome_iff_exists.1 (h.mirrors.linked kind t held)
    exact ⟨records, h.mirrors.pointers records kept⟩

/-- Two loaded blocks that agree with the same files have the same entries and the same stores. -/
theorem Agreed.eq (h : Agreed table refs files b) (h' : Agreed table refs files b')
    (loaded : b.entries.isSome) (loaded' : b'.entries.isSome) :
    b.entries = b'.entries ∧ ∀ kind, b.store kind = b'.store kind := by
  obtain ⟨es, loaded⟩ := Option.isSome_iff_exists.1 loaded
  obtain ⟨es', loaded'⟩ := Option.isSome_iff_exists.1 loaded'
  obtain ⟨-, length, -⟩ := h.mirrors.entries es loaded
  obtain ⟨-, length', -⟩ := h'.mirrors.entries es' loaded'
  have held (kind : FieldKind) : (b.store kind).isSome = (b'.store kind).isSome := by
    rw [Bool.eq_iff_iff]
    constructor
    · exact fun held => h'.complete (by rw [loaded']; rfl) kind (h.readable held)
    · exact fun held => h.complete (by rw [loaded]; rfl) kind (h'.readable held)
  have strip : es.map Entry.strip = es'.map Entry.strip := by
    obtain ⟨base, plain, same⟩ := h.plain es loaded
    obtain ⟨base', plain', same'⟩ := h'.plain es' loaded'
    rw [plain] at plain'
    cases plain'
    exact same.trans same'.symm
  refine ⟨?_, fun kind => ?_⟩
  · rw [loaded, loaded']
    congr 1
    apply List.ext_getElem (by omega)
    intro offset inside inside'
    have here : es[offset]? = some es[offset] := List.getElem?_eq_getElem inside
    have here' : es'[offset]? = some es'[offset] := List.getElem?_eq_getElem inside'
    refine Entry.ext_values ?_ fun kind => ?_
    · have same := congrArg (·[offset]?) strip
      simp only [List.getElem?_map, here, here', Option.map_some, Option.some.injEq] at same
      exact same
    · rw [(h.joined kind).values es offset _ loaded here,
        (h'.joined kind).values es' offset _ loaded' here', held]
  · have same := held kind
    cases stored : b.store kind with
    | none =>
      rw [stored] at same
      cases stored' : b'.store kind with
      | none => rfl
      | some store' =>
        rw [stored'] at same
        cases same
    | some store =>
      rw [stored] at same
      obtain ⟨store', stored'⟩ := Option.isSome_iff_exists.1 same.symm
      obtain ⟨-, read⟩ := h.mirrors.stored kind store stored
      obtain ⟨-, read'⟩ := h'.mirrors.stored kind store' stored'
      rw [read] at read'
      have flags := fun i slot => (h.joined kind).flags es store i slot loaded stored
      have flags' := fun i slot => (h'.joined kind).flags es' store' i slot loaded' stored'
      rw [length] at flags
      rw [length'] at flags'
      rw [stored']
      exact congrArg some (FieldStore.ext_slots (Option.some.inj read') flags flags')

theorem plainEntries_of_edited {linkage : Linkage} {kind : FieldKind} {offset slot : Nat}
    {file : RecordFile} {record : Bytes} {files' : BlockFiles}
    (e : files.Edited linkage kind offset slot file record files') (refs : Reference.Block) :
    files'.plainEntries refs = files.plainEntries refs := by
  have adn := e.others .adn (FileTag.ofKind_ne_adn kind).symm (by decide)
  have ext1 := e.others .ext1 (FileTag.ofKind_ne_ext1 kind).symm (by decide)
  unfold BlockFiles.plainEntries
  rw [adn, ext1]

section

variable {reference : FileId} {i : Nat} {kind : FieldKind} {offset : Nat} {old new : Text}
  {d d' : Desk} {slot : Nat} {file : RecordFile} {record : Bytes}
  (ready : Desk.Ready table reference i refs offset d)
  (effect : Desk.Effect table refs kind offset old new d d' (.ok ()) slot file record)
  (texts : ¬ (old = [] ∧ new = []))
  (before : Agreed table refs (refs.on d.card.files) d.block)

include ready effect texts before

theorem Agreed.values_edited (other : FieldKind) {es' : List Entry} {at' : Nat} {e' : Entry}
    (loaded' : d'.block.entries = some es') (here' : es'[at']? = some e') :
    e'.values other = if (d'.block.store other).isSome then
      (((refs.on d'.card.files).value? (table.linkage other) other at').map (·.2)).toList
      else [] := by
  have held : (d'.block.store other).isSome = (d.block.store other).isSome := by
    rw [effect.stores]
    split
    · next same => rw [same, Option.isSome_map]
    · rfl
  rw [effect.changed rfl] at loaded'
  obtain ⟨es, loaded, rfl⟩ := Option.map_eq_some_iff.1 loaded'
  rw [List.getElem?_modify] at here'
  obtain ⟨e, here, rfl⟩ := Option.map_eq_some_iff.1 here'
  have inside : at' < (refs.on d.card.files).addressCount := by
    rw [← (before.mirrors.entries es loaded).2.1]
    exact (List.getElem?_eq_some_iff.1 here).1
  have value := (before.joined other).values es at' e loaded here
  rw [held]
  by_cases edited : other = kind ∧ at' = offset
  · obtain ⟨rfl, rfl⟩ := edited
    have there := before.complete (by rw [loaded]; rfl) other effect.readable
    rw [if_pos rfl, Entry.values_setValues_self, if_pos there, effect.value?_self texts]
    split <;> rfl
  · have ne : other ≠ kind ∨ at' ≠ offset := Decidable.not_and_iff_not_or_not.1 edited
    rw [effect.value?_of_ne ready.apart ne inside, ← value]
    by_cases place : offset = at'
    · rw [if_pos place]
      exact Entry.values_setValues_of_ne e (fun same => edited ⟨same, place.symm⟩) _
    · rw [if_neg place]

omit before in
/-- The slot that was written is in use if there is a value in it. -/
theorem used_of_written {slot' : FieldSlot} {count : Nat} (inside : offset < count)
    (within : count ≤ (refs.on d.card.files).addressCount)
    (here : some (FieldStore.written record) = some slot') : slot'.used = true ↔
      ∃ at' value, at' < count ∧ (refs.on d'.card.files).value? (table.linkage kind) kind at' =
        some (slot - 1, value) := by
  cases here
  show (!Bytes.isBlank record) = true ↔ _
  rw [Bool.not_eq_true', Bool.eq_false_iff, ne_eq, effect.blank]
  constructor
  · intro text
    refine ⟨offset, kind.decode record, inside, ?_⟩
    rw [effect.value?_self texts, if_neg text]
  · rintro ⟨at', text, inside', h⟩ empty
    by_cases here : at' = offset
    · rw [here, effect.value?_self texts, if_pos empty] at h
      cases h
    · rw [effect.value?_of_ne ready.apart (.inr here) (by omega)] at h
      exact here ((effect.index_eq_iff (by omega) (BlockFiles.linkedSlot?_of_value? h)).1 rfl)

theorem Agreed.flags_edited (other : FieldKind) {es' : List Entry} {store' : FieldStore}
    {index : Nat} {slot' : FieldSlot} (loaded' : d'.block.entries = some es')
    (stored' : d'.block.store other = some store')
    (here' : store'.slots[index]? = some slot') : slot'.used = true ↔
      ∃ at' value, at' < es'.length ∧
        (refs.on d'.card.files).value? (table.linkage other) other at' = some (index, value) := by
  rw [effect.changed rfl] at loaded'
  obtain ⟨es, loaded, rfl⟩ := Option.map_eq_some_iff.1 loaded'
  have length := (before.mirrors.entries es loaded).2.1
  rw [List.length_modify]
  rw [effect.stores] at stored'
  by_cases same : other = kind
  · subst same
    rw [if_pos rfl] at stored'
    obtain ⟨store, stored, rfl⟩ := Option.map_eq_some_iff.1 stored'
    by_cases written : index = slot - 1
    · subst written
      rw [FieldStore.slot?_put] at here'
      have inside := ready.inside
      exact used_of_written ready effect texts (by omega) (Nat.le_of_eq length) here'
    · have room := before.mirrors.lt_size stored effect.edited.found effect.edited.low
        effect.edited.high fun own => by
          have inside := ready.inside
          rw [effect.place own]
          omega
      rw [FieldStore.slot?_put_of_ne room written] at here'
      rw [(before.joined other).flags es store index slot' loaded stored here']
      refine exists_congr fun at' => exists_congr fun text => and_congr_right fun inside => ?_
      by_cases here : at' = offset
      -- neither before nor after is this the slot of the entry that is edited
      · rw [here, effect.value?_self texts]
        constructor
        · intro h
          exact absurd ((effect.index_eq_iff ready.inside
            (BlockFiles.linkedSlot?_of_value? h)).2 rfl) written
        · intro h
          split at h
          · cases h
          · cases h
            exact absurd rfl written
      · rw [effect.value?_of_ne ready.apart (.inr here) (by omega)]
  · rw [if_neg same] at stored'
    rw [(before.joined other).flags es store' index slot' loaded stored' here']
    refine exists_congr fun at' => exists_congr fun text => and_congr_right fun inside => ?_
    rw [effect.value?_of_ne ready.apart (.inl same) (by omega)]

theorem Agreed.edited
    (shape : SameShape d.card.files d'.card.files) :
    Agreed table refs (refs.on d'.card.files) d'.block := by
  refine ⟨effect.mirrors, fun other => ⟨fun es' at' e' => ?_, fun es' store' index slot' => ?_⟩,
    fun loaded' other readable' => ?_, fun es' loaded' => ?_⟩
  · exact before.values_edited ready effect texts other
  · exact before.flags_edited ready effect texts other
  · have loaded : d.block.entries.isSome := ready.loaded
    have held := before.complete loaded other
      (readable'.of_geometry fun tag => shape.on refs tag)
    rw [effect.stores]
    split
    · next same =>
      rw [← same, Option.isSome_map]
      exact held
    · exact held
  · rw [effect.changed rfl] at loaded'
    obtain ⟨es, loaded, rfl⟩ := Option.map_eq_some_iff.1 loaded'
    obtain ⟨base, plain, same⟩ := before.plain es loaded
    refine ⟨base, by rw [plainEntries_of_edited effect.edited, plain], ?_⟩
    rw [← same]
    apply List.ext_getElem?
    intro at'
    rw [List.getElem?_map, List.getElem?_map, List.getElem?_modify]
    cases es[at']? with
    | none => rfl
    | some e =>
      refine congrArg some ?_
      dsimp only
      by_cases here : offset = at'
      · rw [if_pos here]
        exact BlockState.strip_setValues e kind _
      · rw [if_neg here]

end

end Session

end UsimPhonebook
