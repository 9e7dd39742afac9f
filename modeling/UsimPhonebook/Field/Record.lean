import UsimPhonebook.Dialling
import UsimPhonebook.Error
import UsimPhonebook.Text.Alpha

/-! # Field records

An email record holds the address as an alpha field, fill, and two bytes that link it to its
entry: the file of the entry (left unused) and the number of its record.

An additional-number record holds a description byte, a length byte, the number in eleven bytes,
a capability and an extension byte, and, if it is long enough, the file and the record number of
its entry. In the text of a number `P` is a pause and `W` a wait.

* `Email.decode`, `AdditionalNumber.decode` : the value in a record
* `Email.encode`, `AdditionalNumber.encode` : the record of a value, if it has one
* `FieldKind.decode`, `FieldKind.encode` : the same by the kind of the field
-/

namespace UsimPhonebook.Email

/-- The two bytes at the end that link the record to its entry. -/
def linkLen : Nat := 2

/-- The address in a record; a record without room for one holds none. -/
def decode (record : Bytes) : Text :=
  if record.length ≤ linkLen then [] else Alpha.decode (record.take (record.length - linkLen))

/-- The record of an address, `link` being the record number of its entry. The empty address is
an unused record. An address is refused when its bytes leave no room for the link. -/
def encode (recordLen : Nat) (value : Text) (link : Option UInt8) : Except Error Bytes :=
  if value = [] then .ok (Bytes.blank recordLen)
  else
    let text := Gsm.encode value
    if recordLen - linkLen < text.length then .error (.unencodable .email)
    else .ok (text ++ Bytes.blank (recordLen - 1 - text.length) ++ [link.getD fillByte])

end UsimPhonebook.Email

namespace UsimPhonebook.AdditionalNumber

def lengthPosition : Nat := 1

def linkPosition : Nat := 16

/-- The shortest record that holds a number. -/
def minLen : Nat := 15

def showSeparator (c : Char) : Char :=
  if c = Dialling.pause then 'P' else if c = Dialling.wait then 'W' else c

/-- A character as it is dialled: the letters stand for the separators. -/
def dialSeparator (c : Char) : Char :=
  if c = 'P' ∨ c = 'p' then Dialling.pause else if c = 'W' ∨ c = 'w' then Dialling.wait else c

def decode (record : Bytes) : Text :=
  (Dialling.numberField record lengthPosition).map showSeparator

/-- The bytes that follow the number field: two unused ones and, where the record is long enough,
the link to the entry. -/
def tail (length : Nat) (link : Option UInt8) : Bytes :=
  if 3 < length then Bytes.blank 3 ++ link.getD fillByte :: Bytes.blank (length - 4)
  else Bytes.blank length

/-- The record of a number, `link` being the record number of its entry. The empty number is an
unused record. -/
def encode (recordLen : Nat) (value : Text) (link : Option UInt8) : Except Error Bytes :=
  if value = [] then .ok (Bytes.blank recordLen)
  else if recordLen < minLen then .error (.invalid .additionalNumberRecord)
  else
    match Dialling.encode? (value.map dialSeparator) with
    | none => .error (.unencodable .anr)
    | some number =>
      if Dialling.maxBytes < number.length then .error (.unencodable .anr)
      else .ok (0x00 :: UInt8.ofNat number.length :: Bytes.fitTo Dialling.maxBytes number
        ++ tail (recordLen - 13) link)

end UsimPhonebook.AdditionalNumber

namespace UsimPhonebook.FieldKind

def decode : FieldKind → Bytes → Text
  | email => Email.decode
  | anr => AdditionalNumber.decode

/-- The record of a value, linked to the entry with record number `link`. -/
def encode : FieldKind → Nat → Text → Option UInt8 → Except Error Bytes
  | email => Email.encode
  | anr => AdditionalNumber.encode

end UsimPhonebook.FieldKind
