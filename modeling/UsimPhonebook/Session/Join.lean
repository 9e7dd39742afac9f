import UsimPhonebook.Session.Block

/-! # Joining fields to entries

The values of a kind are attached to the entries of a block, and the slots that hold them are
marked as used.

* `BlockState.linkedSlot?` is the slot that an entry is linked to, under either linkage.
* `BlockState.linkedValue?` adds the value in that slot; an empty value is none.
* `BlockState.joinKind` gives each entry its linked value and marks exactly the slots of these
  values; `BlockState.join` does so for every kind.
-/

namespace UsimPhonebook.BlockState

def storedValue? (kind : FieldKind) (store : FieldStore) (index : Nat) : Option Text :=
  match store.record? index with
  | some record => if kind.decode record = [] then none else some (kind.decode record)
  | none => none

/-- The slot (from 0) to which the entry at `offset` is linked. -/
def linkedSlot? (b : BlockState) (linkage : Linkage) (offset : Nat) : Option Nat :=
  match linkage with
  | .type1 => some offset
  | .type2 position =>
    match b.pointer? offset with
    | some record => (pointedSlot? record position).map (· - 1)
    | none => none

/-- The slot to which an entry is linked and the value in it, if there is one. -/
def linkedValue? (b : BlockState) (kind : FieldKind) (linkage : Linkage) (store : FieldStore)
    (offset : Nat) : Option (Nat × Text) :=
  match b.linkedSlot? linkage offset with
  | some index => (storedValue? kind store index).map fun value => (index, value)
  | none => none

/-- Attaches the values of a kind to the entries and marks their slots. -/
def joinKind (b : BlockState) (kind : FieldKind) (linkage : Linkage) : BlockState :=
  match b.entries, b.store kind with
  | none, _ => b
  | some entries, none => { b with entries := some (entries.map (·.setValues kind [])) }
  | some entries, some store =>
    let linked := fun offset => b.linkedValue? kind linkage store offset
    let inUse := (List.range entries.length).filterMap fun offset => (linked offset).map (·.1)
    { b.setStore kind (inUse.foldl FieldStore.use store.release) with
      entries := some (entries.zipIdx.map fun (entry, offset) =>
        entry.setValues kind ((linked offset).map (·.2)).toList) }

/-- Attaches the values of every kind. -/
def join (b : BlockState) (table : Reference.Table) : BlockState :=
  FieldKind.all.foldl (fun b kind => b.joinKind kind (table.linkage kind)) b

end UsimPhonebook.BlockState
