import UsimPhonebook.Session.Basic

/-! # Free slots

How many more values of a kind the card can take. Under positional linkage there is no bound that
the slots would tell, which is shown as `unbounded`.
-/

namespace UsimPhonebook.Session

/-- The figure that stands for no bound. -/
def unbounded : Nat := 65535

/-- How entries find their values of a kind; positional until the reference table is read. -/
def linkage (s : Session) (kind : FieldKind) : Linkage :=
  match s.table with
  | some table => table.linkage kind
  | none => .type1

/-- The free slots of a kind in a block; none where no records of the kind are held. -/
def freeInBlock (s : Session) (kind : FieldKind) (block : Nat) : Nat :=
  match s.blocks[block]?.bind (·.store kind) with
  | some store => store.freeCount
  | none => 0

/-- The free slots of a kind over all blocks, `unbounded` under positional linkage. -/
def freeCount (s : Session) (kind : FieldKind) : Nat :=
  match s.linkage kind with
  | .type1 => unbounded
  | .type2 _ => (s.blocks.filterMap (·.store kind)).foldr (·.freeCount + ·) 0

/-- The free slots that an entry of a block can use. An additional number needs a slot at the
entry's own position, so that an entry past the end of the file has none. -/
def freeForOffset (s : Session) (kind : FieldKind) (block : Nat) (b : BlockState) (offset : Nat) :
    Nat :=
  match s.linkage kind, kind with
  | .type2 _, _ => if b.pointers.isSome then s.freeInBlock kind block else unbounded
  | .type1, .email => unbounded
  | .type1, .anr =>
    match b.anr with
    | none => 0
    | some store =>
      if b.entryCount ≤ store.size then store.freeCount
      else if store.size ≤ offset then 0
      else unbounded

/-- The free slots that the entry at a global position can use. -/
def freeForEntry (s : Session) (kind : FieldKind) (position : Nat) : Nat :=
  match s.locate? position with
  | none => 0
  | some (block, offset) =>
    match s.blocks[block]? with
    | some b => s.freeForOffset kind block b offset
    | none => 0

end UsimPhonebook.Session
