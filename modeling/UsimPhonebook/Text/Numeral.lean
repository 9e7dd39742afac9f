import UsimPhonebook.Bytes
import UsimPhonebook.Text.Basic

/-! # Numerals

Decimal and hexadecimal numbers as text, and records as pairs of hexadecimal digits.

* `readNatural? base` reads digits of either case after at most one `+`.
* `Hex.bytes` and `Hex.readBytes?` are inverse to each other up to the case of the digits
  (`Hex.readBytes?_bytes`).
-/

namespace UsimPhonebook

def decimal (n : Nat) : Text := Nat.toDigits 10 n

/-- The value of a digit or letter, of either case. -/
def digitValue? (c : Char) : Option Nat :=
  if '0' ≤ c ∧ c ≤ '9' then some (c.toNat - 48)
  else if 'a' ≤ c ∧ c ≤ 'z' then some (c.toNat - 87)
  else if 'A' ≤ c ∧ c ≤ 'Z' then some (c.toNat - 55)
  else none

/-- The digits of `t` in `base` read on from the number `acc`; `none` at any other character. -/
def readDigits? (base : Nat) (acc : Nat) : Text → Option Nat
  | [] => some acc
  | c :: rest =>
    match digitValue? c with
    | some d => if d < base then readDigits? base (acc * base + d) rest else none
    | none => none

/-- One or more digits of `base`, after at most one `+`. -/
def readNatural? (base : Nat) : Text → Option Nat
  | [] => none
  | ['+'] => none
  | '+' :: rest => readDigits? base 0 rest
  | t => readDigits? base 0 t

def isMachineWord (n : Nat) : Bool := n < wordLimit

namespace Hex

def digit (n : Nat) : Char :=
  if n < 10 then Char.ofNat (48 + n) else Char.ofNat (55 + n)

def byte (b : UInt8) : Text := [digit (b.toNat / 16), digit (b.toNat % 16)]

def bytes (bs : Bytes) : Text := bs.flatMap byte

def word (w : UInt16) : Text :=
  [digit (w.toNat / 4096), digit (w.toNat / 256 % 16), digit (w.toNat / 16 % 16),
   digit (w.toNat % 16)]

def digitValue? (c : Char) : Option Nat :=
  (UsimPhonebook.digitValue? c).filter (· < 16)

/-- The bytes of an even number of digits. -/
def readBytes? : Text → Option Bytes
  | [] => some []
  | [_] => none
  | h :: l :: rest =>
    match digitValue? h, digitValue? l, readBytes? rest with
    | some hi, some lo, some bs => some (UInt8.ofNat (hi * 16 + lo) :: bs)
    | _, _, _ => none

/-- A word written with any number of digits, after at most one `+`. -/
def readWord? (t : Text) : Option UInt16 :=
  match readNatural? 16 t with
  | some n => if n < 65536 then some (UInt16.ofNat n) else none
  | none => none

theorem digitValue?_digit {n : Nat} (h : n < 16) : digitValue? (digit n) = some n := by
  have table : ∀ k : Fin 16, digitValue? (digit k.val) = some k.val := by decide
  exact table ⟨n, h⟩

theorem readBytes?_bytes (bs : Bytes) : readBytes? (bytes bs) = some bs := by
  induction bs with
  | nil => rfl
  | cons b rest ih =>
    have hb : b.toNat < 256 := b.toNat_lt
    have hi : b.toNat / 16 < 16 := by omega
    have lo : b.toNat % 16 < 16 := by omega
    have whole : b.toNat / 16 * 16 + b.toNat % 16 = b.toNat := by omega
    have unfolded : bytes (b :: rest) =
        digit (b.toNat / 16) :: digit (b.toNat % 16) :: bytes rest := rfl
    rw [unfolded, readBytes?, digitValue?_digit hi, digitValue?_digit lo, ih]
    simp [whole]

end Hex

end UsimPhonebook
