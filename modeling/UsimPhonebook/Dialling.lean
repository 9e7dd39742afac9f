import UsimPhonebook.Bytes
import UsimPhonebook.Text.Basic

/-! # Dialling numbers

A number on the card is a type byte followed by digits, two to a byte with the first one in the
low half. The digit values `0xA` to `0xD` are `*`, `#`, pause and wait; `0xF` ends the number.

* `Dialling.digits` and `Dialling.calledParty` read, `Dialling.encode?` writes.
* `Dialling.numberField` reads a number that a length byte announces.
-/

namespace UsimPhonebook.Dialling

/-- The separator that pauses dialling. -/
def pause : Char := ','

/-- The separator that waits for the user. -/
def wait : Char := ';'

def internationalType : UInt8 := 0x91

def unknownType : UInt8 := 0x81

/-- The longest number that a record holds, in bytes with the type byte. -/
def maxBytes : Nat := 11

/-- The digit value that ends a number. -/
def endDigit : Nat := 0xF

/-- The characters of the digit values, in order. -/
def symbols : List Char := ['0', '1', '2', '3', '4', '5', '6', '7', '8', '9', '*', '#', pause, wait]

/-- The character of a digit value; the value `0xE` has none. -/
def symbol? (digit : Nat) : Option Char := symbols[digit]?

def digit? (c : Char) : Option Nat := symbols.idxOf? c

/-- The digit values of a run of bytes, the low half of each byte first. -/
def halves (src : Bytes) : List Nat := src.flatMap fun b => [b.toNat % 16, b.toNat / 16]

/-- The digits up to the first `endDigit`; a value without a character is skipped. -/
def digits (src : Bytes) : Text := ((halves src).takeWhile (· != endDigit)).filterMap symbol?

/-- An international number has type 1 in the type byte, whatever its plan. -/
def isInternational (type : UInt8) : Bool := type.toNat / 16 % 8 == 1

/-- A type byte and digits; `+` stands in front of an international number. -/
def calledParty : Bytes → Text
  | [] => []
  | type :: src => (if isInternational type then ['+'] else []) ++ digits src

/-- Two digit values to a byte; an odd last one is followed by `endDigit`. -/
def pack : List Nat → Bytes
  | [] => []
  | [lo] => [UInt8.ofNat (endDigit * 16 + lo)]
  | lo :: hi :: rest => UInt8.ofNat (hi * 16 + lo) :: pack rest

/-- The bytes of a number. Any `+` makes it international and is no digit; a number without
digits, or with a character that is none, has no bytes. -/
def encode? (number : Text) : Option Bytes :=
  match (number.filter (· != '+')).mapM digit? with
  | none => none
  | some [] => none
  | some values =>
    some ((if number.contains '+' then internationalType else unknownType) :: pack values)

/-- The number whose length byte is at `position` in the record. A length that is zero, too
great for a number, or beyond the end of the record reads as no number. -/
def numberField (record : Bytes) (position : Nat) : Text :=
  match record.drop position with
  | [] => []
  | length :: rest =>
    if length.toNat = 0 ∨ maxBytes < length.toNat ∨ rest.length < length.toNat then []
    else calledParty (rest.take length.toNat)

end UsimPhonebook.Dialling
