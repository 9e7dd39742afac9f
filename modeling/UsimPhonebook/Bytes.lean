/-! # Bytes and records

A record is a list of bytes, and unused space is filled with `0xFF`.

* `Bytes.fitTo n` cuts or fills a record to `n` bytes (`Bytes.length_fitTo`).
* `Bytes.isBlank` says that a record is unused: nothing but fill (`Bytes.isBlank_blank`).
* `Bytes.eq_blank_of_isBlank` : there is one unused record of each length.
* `numbered?` is the 1-based access by which the card names its records.
-/

namespace UsimPhonebook

/-- The content of a record, or any other run of bytes. -/
abbrev Bytes := List UInt8

/-- One more than the greatest number of a 64-bit machine word. -/
def wordLimit : Nat := 0x10000000000000000

def fillByte : UInt8 := 0xFF

namespace Bytes

/-- An unused record of `n` bytes. -/
def blank (n : Nat) : Bytes := List.replicate n fillByte

/-- Unused: every byte is fill. The empty record counts as unused. -/
def isBlank (b : Bytes) : Bool := b.all (· == fillByte)

/-- Exactly `n` bytes: the tail is cut off, or fill is added. -/
def fitTo (n : Nat) (b : Bytes) : Bytes := b.take n ++ blank (n - b.length)

/-- The word of two bytes, the high one first. -/
def word (hi lo : UInt8) : UInt16 := UInt16.ofNat (hi.toNat * 256 + lo.toNat)

/-- The words of a run of byte pairs; an odd last byte is dropped. -/
def words : Bytes → List UInt16
  | hi :: lo :: rest => word hi lo :: words rest
  | _ => []

@[simp] theorem length_blank (n : Nat) : (blank n).length = n := by simp [blank]

@[simp] theorem isBlank_blank (n : Nat) : isBlank (blank n) = true := by
  simp [isBlank, blank, List.all_replicate]

@[simp] theorem length_fitTo (n : Nat) (b : Bytes) : (fitTo n b).length = n := by
  simp [fitTo]; omega

theorem fitTo_eq_self {n : Nat} {b : Bytes} (h : b.length = n) : fitTo n b = b := by
  subst h; simp [fitTo, blank]

theorem toNat_ofNat {n : Nat} (h : n < 256) : (UInt8.ofNat n).toNat = n := by
  rw [UInt8.toNat_ofNat']
  omega

theorem toNat_word (hi lo : UInt8) : (word hi lo).toNat = hi.toNat * 256 + lo.toNat := by
  have := hi.toNat_lt
  have := lo.toNat_lt
  rw [word, UInt16.toNat_ofNat']
  omega

theorem eq_blank_of_isBlank {b : Bytes} (h : isBlank b = true) : b = blank b.length := by
  rw [blank, List.eq_replicate_iff]
  exact ⟨rfl, fun x hx => by simpa using List.all_eq_true.1 h x hx⟩

end Bytes

/-- The item with 1-based number `number`; there is no item `0`. -/
def numbered? {α : Type} (items : List α) : Nat → Option α
  | 0 => none
  | n + 1 => items[n]?

@[simp] theorem numbered?_zero {α : Type} (items : List α) : numbered? items 0 = none := rfl

@[simp] theorem numbered?_succ {α : Type} (items : List α) (n : Nat) :
    numbered? items (n + 1) = items[n]? := rfl

end UsimPhonebook
