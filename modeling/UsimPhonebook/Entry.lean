import UsimPhonebook.Dialling
import UsimPhonebook.Reference.Tag
import UsimPhonebook.FileId
import UsimPhonebook.Text.Alpha
import UsimPhonebook.Text.Basic

/-! # Phonebook entries

An address record is an alpha field followed by a footer of fourteen bytes: the number field in
the first thirteen, and the number of an extension record in the last one. Digits that did not fit
go on in extension records, each of which names the next.

* `Entry.decode` reads an address record.
* `Entry.extensionDigits` follows the chain of extension records; it visits at most as many as
  there are.
-/

namespace UsimPhonebook

/-- An entry: its name and number, the values of its fields, and where its record lies. -/
structure Entry where
  alpha : Text := []
  number : Text := []
  emails : List Text := []
  additionalNumbers : List Text := []
  file : FileId
  recordNumber : Nat
  /-- the extension record with the rest of the number -/
  extension : Option UInt8 := none
  deriving DecidableEq, Repr

namespace Entry

def footerLen : Nat := 14

/-- The position in the footer of the byte that names an extension record. -/
def extensionPosition : Nat := 13

/-- An extension record named by a byte; `0x00` and fill name none. -/
def extension? (id : UInt8) : Option UInt8 := if id = 0x00 ∨ id = fillByte then none else some id

/-- The entry of an address record. A record shorter than the footer is an empty entry. -/
def decode (file : FileId) (recordNumber : Nat) (record : Bytes) : Entry :=
  if record.length < footerLen then { file, recordNumber }
  else
    let footer := record.length - footerLen
    { file, recordNumber,
      alpha := Text.trimEnd (Alpha.decode (record.take footer)),
      number := Dialling.numberField record footer,
      extension := record[footer + extensionPosition]?.bind extension? }

def isEmpty (e : Entry) : Bool := e.alpha.isEmpty && e.number.isEmpty

def values (e : Entry) : FieldKind → List Text
  | .email => e.emails
  | .anr => e.additionalNumbers

/-- Puts values of a kind in the place of those that the entry has. -/
def setValues (e : Entry) (kind : FieldKind) (values : List Text) : Entry :=
  match kind with
  | .email => { e with emails := values }
  | .anr => { e with additionalNumbers := values }

@[simp] theorem values_setValues_self (e : Entry) (kind : FieldKind) (vs : List Text) :
    (e.setValues kind vs).values kind = vs := by cases kind <;> rfl

theorem values_setValues_of_ne (e : Entry) {kind other : FieldKind} (h : other ≠ kind)
    (vs : List Text) : (e.setValues kind vs).values other = e.values other := by
  cases kind <;> cases other <;> first | rfl | exact absurd rfl h

/-! ## Extension records -/

/-- The type of an extension record that holds more digits. -/
def extensionType : UInt8 := 0x02

/-- The position in an extension record of the byte that names the next one. -/
def nextPosition : Nat := 12

/-- The digits in an extension record; a length that goes past its end gives none. -/
def digitsOf (record : Bytes) : Text :=
  match record with
  | _ :: length :: rest =>
    if length.toNat ≤ rest.length then Dialling.digits (rest.take length.toNat) else []
  | _ => []

def nextOf (record : Bytes) : Option UInt8 := record[nextPosition]?.bind extension?

/-- The digits of at most `hops` extension records, starting from the one named by `id`. The chain
ends where no record is named, where the named one does not exist or has another type. -/
def extensionDigits (records : List Bytes) : Nat → Option UInt8 → Text
  | 0, _ => []
  | _ + 1, none => []
  | hops + 1, some id =>
    match numbered? records id.toNat with
    | none => []
    | some record =>
      if record.head? = some extensionType then
        digitsOf record ++ extensionDigits records hops (nextOf record)
      else []

/-- Appends the digits of the entry's extension records to its number. -/
def extend (e : Entry) (records : List Bytes) : Entry :=
  { e with number := e.number ++ extensionDigits records records.length e.extension }

end Entry

end UsimPhonebook
