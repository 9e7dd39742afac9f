import UsimPhonebook.Text.Numeral

/-! # File identifiers

Every file of the card has a 16-bit identifier, shown as four upper-case hexadecimal digits.
-/

namespace UsimPhonebook

/-- The identifier of an elementary file. -/
structure FileId where
  value : UInt16
  deriving DecidableEq, Repr

namespace FileId

instance : LT FileId := ⟨fun a b => a.value < b.value⟩

instance : DecidableLT FileId := fun a b => inferInstanceAs (Decidable (a.value < b.value))

/-- The identifier in the first two bytes, the high one first. -/
def ofBytes? : Bytes → Option FileId
  | hi :: lo :: _ => some ⟨Bytes.word hi lo⟩
  | _ => none

/-- The identifier of a number below 65536. -/
def ofNat (n : Nat) : FileId := ⟨UInt16.ofNat n⟩

def toNat (f : FileId) : Nat := f.value.toNat

/-- Four upper-case hexadecimal digits. -/
def text (f : FileId) : Text := Hex.word f.value

theorem lt_iff (a b : FileId) : a < b ↔ a.toNat < b.toNat := Iff.rfl

theorem lt_of_not_lt {a b : FileId} (ne : a ≠ b) (h : ¬ a < b) : b < a := by
  rw [lt_iff] at *
  have : a.toNat ≠ b.toNat := fun e => ne (by
    cases a; cases b
    exact congrArg FileId.mk (UInt16.toNat_inj.1 e))
  omega

theorem lt_trans {a b c : FileId} (h : a < b) (h' : b < c) : a < c := by
  rw [lt_iff] at *
  omega

end FileId

end UsimPhonebook
