import UsimPhonebook.Checked.Access
import UsimPhonebook.Entry
import UsimPhonebook.Field.Record

/-! # Reading and writing records by position

The codecs of the records as they go to work on the bytes: by slices, by single bytes at a position,
and by differences of positions.

Where a record may end before the bytes that are looked for, its codec asks first: there `slice?`, a
byte at a position and `sub?` stand in a `match`, and what is missing is one of the cases. The
digits of a number are read byte after byte without a position, by `Dialling.digits`.
-/

namespace UsimPhonebook.Checked

variable {α : Type}

/-! ## Text -/

/-- The pairs of neighbours; an odd last item is left out. -/
def exactPairs : List α → List (List α)
  | a :: b :: rest => [a, b] :: exactPairs rest
  | _ => []

/-- The pairs of neighbours; an odd last item is alone. -/
def pairs : List α → List (List α)
  | a :: b :: rest => [a, b] :: pairs rest
  | [a] => [[a]]
  | [] => []

def word? (pair : Bytes) : Option UInt16 := do
  let hi ← pair[0]?
  let lo ← pair[1]?
  pure (Bytes.word hi lo)

/-- Words up to `0xFFFF`. -/
def decodeWords? (src : Bytes) : Option Text := do
  let words ← (exactPairs src).mapM word?
  pure (Units.toTextLossy (words.takeWhile (· != 0xFFFF)))

/-- Paged characters; the page starts at `base src`, the bytes at position `body`. -/
def decodePaged? (src : Bytes) (base : Bytes → Option Nat) (body : Nat) : Option Text := do
  let base ← base src
  let count ← src[1]?
  let bytes ← slice? src body src.length
  pure (Alpha.decodePaged count.toNat base bytes)

def pageBase? (src : Bytes) : Option Nat := do
  let page ← src[2]?
  pure (page.toNat * 128)

def wordBase? (src : Bytes) : Option Nat := do
  let hi ← src[2]?
  let lo ← src[3]?
  pure (Bytes.word hi lo).toNat

/-- The text of the default alphabet from a position on, if its end is met within so many steps. The
byte behind an `escape` may be missing. -/
def decodeFrom? (src : Bytes) : Nat → Nat → Option Text
  | 0, _ => none
  | steps + 1, position =>
    match src[position]? with
    | none => some []
    | some b =>
      if b = fillByte then some []
      else if b = Gsm.escape then
        match src[position + 1]? with
        | none => some []
        | some next =>
          if next = fillByte then some []
          else (decodeFrom? src steps (position + 2)).map (Gsm.escapedChar next :: ·)
      else (decodeFrom? src steps (position + 1)).map (Gsm.defaultChar b :: ·)

/-- The text of the default alphabet; each character takes a byte at least. -/
def decodeText? (src : Bytes) : Option Text := decodeFrom? src (src.length + 1) 0

def decodeAlpha? (src : Bytes) : Option Text :=
  if src.head? = some 0x80 then do
    let words ← slice? src 1 src.length
    decodeWords? words
  else if src.head? = some 0x81 ∧ 3 ≤ src.length then decodePaged? src pageBase? 3
  else if src.head? = some 0x82 ∧ 4 ≤ src.length then decodePaged? src wordBase? 4
  else decodeText? src

/-- Two bytes for a character of the alphabet, and how many of them count. -/
def septets? (c : Char) : Option (Bytes × Nat) :=
  match Gsm.defaultTable.idxOf? (some c) with
  | some code => some ([UInt8.ofNat code, 0x00], 1)
  | none => (Gsm.extensionTable.find? (·.2 == c)).map fun entry => ([Gsm.escape, entry.1], 2)

/-- The bytes of a character, a blank for one outside the alphabet. -/
def encodeChar? (c : Char) : Option Bytes :=
  match septets? c with
  | some (bytes, count) => slice? bytes 0 count
  | none => some [0x20]

def encodeText? (t : Text) : Option Bytes := (t.mapM encodeChar?).map List.flatten

/-! ## Numbers -/

def digit? (c : Char) : Option (Option Nat) :=
  if '0'.toNat ≤ c.toNat ∧ c.toNat ≤ '9'.toNat then (sub? c.toNat '0'.toNat).map some
  else if c = '*' then some (some 0xA)
  else if c = '#' then some (some 0xB)
  else if c = Dialling.pause then some (some 0xC)
  else if c = Dialling.wait then some (some 0xD)
  else some none

/-- The byte of two digit values, or of one and `endDigit`. -/
def packed? (pair : List Nat) : Option UInt8 := do
  let lo ← pair[0]?
  pure (UInt8.ofNat (pair[1]?.getD Dialling.endDigit * 16 + lo))

/-- The bytes of a number, if it has any. -/
def encodeNumber? (number : Text) : Option (Option Bytes) := do
  let digits ← (number.filter (· != '+')).mapM digit?
  match digits.mapM id with
  | none => pure none
  | some [] => pure none
  | some values => do
    let bytes ← (pairs values).mapM packed?
    let type := if number.contains '+' then Dialling.internationalType else Dialling.unknownType
    pure (some (type :: bytes))

/-- The number whose length byte is at a position. Both the length and the bytes that it announces
may be missing. -/
def numberField (record : Bytes) (position : Nat) : Text :=
  match record[position]? with
  | none => []
  | some length =>
    if length = 0x00 ∨ length = fillByte ∨ Dialling.maxBytes < length.toNat then []
    else
      match slice? record (position + 1) (position + 1 + length.toNat) with
      | some field => Dialling.calledParty field
      | none => []

/-! ## Field records -/

def decodeEmail? (record : Bytes) : Option Text :=
  match sub? record.length Email.linkLen with
  | none => some []
  | some stop =>
    if 0 < stop then do
      let field ← slice? record 0 stop
      decodeAlpha? field
    else some []

def encodeEmail? (recordLen : Nat) (value : Text) (link : Option UInt8) :
    Option (Except Error Bytes) :=
  if value = [] then some (.ok (Bytes.blank recordLen))
  else do
    let text ← encodeText? value
    if recordLen - Email.linkLen < text.length then pure (.error (.unencodable .email))
    else do
      let record ← copy? (Bytes.blank recordLen) 0 text
      match link with
      | none => pure (.ok record)
      | some number => do
        let last ← sub? recordLen 1
        let record ← set? record last number
        pure (.ok record)

def writeNumber? (record number : Bytes) : Option Bytes := do
  let record ← set? record 0 0x00
  let record ← set? record AdditionalNumber.lengthPosition (UInt8.ofNat number.length)
  copy? record (AdditionalNumber.lengthPosition + 1) number

/-- Writes the two bytes behind the number field and, where the record is long enough, the link. -/
def writeLink? (record : Bytes) (link : Option UInt8) : Option Bytes := do
  let record ← set? record 13 fillByte
  let record ← set? record 14 fillByte
  match link with
  | none => pure record
  | some entry =>
    if AdditionalNumber.linkPosition < record.length then
      set? record AdditionalNumber.linkPosition entry
    else pure record

def encodeAdditionalNumber? (recordLen : Nat) (value : Text) (link : Option UInt8) :
    Option (Except Error Bytes) :=
  if value = [] then some (.ok (Bytes.blank recordLen))
  else if recordLen < AdditionalNumber.minLen then
    some (.error (.invalid .additionalNumberRecord))
  else do
    match ← encodeNumber? (value.map AdditionalNumber.dialSeparator) with
    | none => pure (.error (.unencodable .anr))
    | some number =>
      if Dialling.maxBytes < number.length then pure (.error (.unencodable .anr))
      else do
        let record ← writeNumber? (Bytes.blank recordLen) number
        let record ← writeLink? record link
        pure (.ok record)

def decodeAdditionalNumber (record : Bytes) : Text :=
  (numberField record AdditionalNumber.lengthPosition).map AdditionalNumber.showSeparator

def decodeField? : FieldKind → Bytes → Option Text
  | .email, record => decodeEmail? record
  | .anr, record => some (decodeAdditionalNumber record)

def encodeField? : FieldKind → Nat → Text → Option UInt8 → Option (Except Error Bytes)
  | .email => encodeEmail?
  | .anr => encodeAdditionalNumber?

/-! ## Address and extension records -/

def decodeEntry? (file : FileId) (recordNumber : Nat) (record : Bytes) : Option Entry :=
  match sub? record.length Entry.footerLen with
  | none => some { file, recordNumber }
  | some footer => do
    let field ← slice? record 0 footer
    let name ← decodeAlpha? field
    let id ← record[footer + Entry.extensionPosition]?
    pure { file, recordNumber, alpha := Text.trimEnd name, number := numberField record footer,
           extension := Entry.extension? id }

/-- The digits in an extension record. Its length may be missing or go past its end. -/
def digitsOf (record : Bytes) : Text :=
  match slice? record 2 (2 + (record[1]?.getD 0x00).toNat) with
  | some digits => Dialling.digits digits
  | none => []

/-- The digits of at most `hops` extension records, starting from the one named by `id`. -/
def extensionDigits? (records : List Bytes) : Nat → Option UInt8 → Option Text
  | 0, _ => some []
  | _ + 1, none => some []
  | hops + 1, some id => do
    let index ← sub? id.toNat 1
    match records[index]? with
    | none => pure []
    | some record =>
      if record.head? = some Entry.extensionType then do
        let digits ← extensionDigits? records hops (Entry.nextOf record)
        pure (digitsOf record ++ digits)
      else pure []

def extend? (records : List Bytes) (e : Entry) : Option Entry := do
  let digits ← extensionDigits? records records.length e.extension
  pure { e with number := e.number ++ digits }

end UsimPhonebook.Checked
