import UsimPhonebook.Field.Record
import UsimPhonebook.Bytes
import UsimPhonebook.Proofs.Field.AdditionalNumber
import UsimPhonebook.Proofs.Field.Email

/-! # What a written field record reads as

For a record that `FieldKind.encode` made (`FieldKind.encode_spec`): it has the length asked for, it
reads as a value exactly if a value was written, and it is blank exactly if none was. Whether there
is a record for a value does not depend on the entry that it names (`FieldKind.Accepts.encode`).
-/

namespace UsimPhonebook

namespace FieldKind

theorem decode_blank (kind : FieldKind) (n : Nat) : kind.decode (Bytes.blank n) = [] := by
  cases kind
  · exact Email.decode_blank n
  · exact AdditionalNumber.decode_blank n

theorem encode_nil (kind : FieldKind) (n : Nat) (link : Option UInt8) :
    kind.encode n [] link = .ok (Bytes.blank n) := by
  cases kind <;> rfl

/-- A written record has the length asked for, and it reads as a value, and is not blank, exactly
if a value was written. -/
theorem encode_spec (kind : FieldKind) {n : Nat} {value : Text} {link : Option UInt8}
    {record : Bytes} (h : kind.encode n value link = .ok record) :
    record.length = n ∧ (kind.decode record = [] ↔ value = []) ∧
      (Bytes.isBlank record = true ↔ value = []) := by
  have written : record.length = n ∧ (kind.decode record = [] ↔ value = []) := by
    cases kind with
    | email =>
      have read : FieldKind.email.decode record = value.map Gsm.shown := Email.decode_of_encode h
      exact ⟨Email.length_of_encode h, by rw [read, List.map_eq_nil_iff]⟩
    | anr =>
      have read : FieldKind.anr.decode record = AdditionalNumber.shown value :=
        AdditionalNumber.decode_of_encode h
      exact ⟨AdditionalNumber.length_of_encode h, by rw [read, AdditionalNumber.shown_eq_nil_iff]⟩
  refine ⟨written.1, written.2, fun blank => written.2.1 ?_, fun empty => ?_⟩
  · rw [Bytes.eq_blank_of_isBlank blank]
    exact decode_blank kind _
  · subst empty
    rw [encode_nil] at h
    cases h
    exact Bytes.isBlank_blank n

/-- There is a record of this length for the value. -/
def Accepts (kind : FieldKind) (recordLen : Nat) (value : Text) : Prop :=
  ∃ link record, kind.encode recordLen value link = .ok record

theorem Accepts.encode {kind : FieldKind} {recordLen : Nat} {value : Text}
    (h : kind.Accepts recordLen value) (link : Option UInt8) :
    ∃ record, kind.encode recordLen value link = .ok record := by
  obtain ⟨link', record, h⟩ := h
  cases kind with
  | email =>
    exact (Email.exists_encode_iff _ _ link).2 ((Email.exists_encode_iff _ _ link').1 ⟨record, h⟩)
  | anr =>
    exact (AdditionalNumber.exists_encode_iff _ _ link).2
      ((AdditionalNumber.exists_encode_iff _ _ link').1 ⟨record, h⟩)

end FieldKind

end UsimPhonebook
