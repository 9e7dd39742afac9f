import UsimPhonebook.Card.Basic
import UsimPhonebook.Error
import UsimPhonebook.Json.Reader

/-! # Card images

A card image is the text form of the files of a card: for each file, under its identifier in
hexadecimal, the record length and the records as hexadecimal digits.

* `Card.ofImage` builds the card of an image and `Card.toImage` takes the image of a card.
* `CardImage.read?` and `CardImage.text` are the JSON form. Members that an image does not need
  are passed over, and where a file is named twice the later one counts.
-/

namespace UsimPhonebook

/-- A file in text form. -/
structure FileImage where
  recordLen : Nat
  records : List Text
  deriving DecidableEq, Repr

/-- The files of a card in text form, by identifier. -/
structure CardImage where
  files : SortedMap Text FileImage := {}
  deriving DecidableEq, Repr

/-! ## Images and cards -/

/-- The file of an image, its records cut or filled to the record length. -/
def FileImage.toFile? (image : FileImage) : Except Error RecordFile :=
  match image.records.mapM Hex.readBytes? with
  | some records => .ok (.ofRecords image.recordLen records)
  | none => .error (.invalid .recordText)

def FileImage.ofFile (file : RecordFile) : FileImage := ⟨file.recordLen, file.records.map Hex.bytes⟩

namespace Card

def addImage (card : Card) (key : Text) (image : FileImage) : Except Error Card :=
  match Hex.readWord? key with
  | none => .error (.invalid .fileId)
  | some id => (image.toFile?).map (card.insert ⟨id⟩)

/-- The card of an image. The files are taken in order of their keys, so that the first bad one
decides, and of two keys that name one file the later. -/
def ofImage (image : CardImage) : Except Error Card :=
  image.files.items.foldlM (fun card (key, file) => card.addImage key file) {}

def toImage (card : Card) : CardImage :=
  ⟨⟨card.files.items.map fun (id, file) => (id.text, FileImage.ofFile file)⟩⟩

end Card

/-! ## Images and JSON -/

namespace FileImage

def lengthKey : Text := "record_len".toList

def recordsKey : Text := "records".toList

def ofParts? (length records : Json) : Option FileImage :=
  match length.machineWord?, records.items?.bind (·.mapM Json.text?) with
  | some recordLen, some records => some { recordLen, records }
  | _, _ => none

/-- The image of a file. An array of the two members in order serves as well as an object. -/
def ofJson? : Json → Option FileImage
  | .object members =>
    match Json.onlyMember? members lengthKey, Json.onlyMember? members recordsKey with
    | some length, some records => ofParts? length records
    | _, _ => none
  | .array [length, records] => ofParts? length records
  | _ => none

def toJson (image : FileImage) : Json :=
  .object [(lengthKey, .ofNat image.recordLen), (recordsKey, .array (image.records.map .string))]

end FileImage

namespace CardImage

def filesKey : Text := "files".toList

def ofFiles? (files : Json) : Option CardImage := do
  let members ← files.members?
  let pairs ← members.mapM fun (key, file) => (FileImage.ofJson? file).map fun file => (key, file)
  return ⟨.ofList pairs⟩

/-- The image of a document. An array of the one member serves as well as an object. -/
def ofJson? : Json → Option CardImage
  | .object members => (Json.onlyMember? members filesKey).bind ofFiles?
  | .array [files] => ofFiles? files
  | _ => none

def toJson (image : CardImage) : Json :=
  .object [(filesKey, .object (image.files.items.map fun (key, file) => (key, file.toJson)))]

def read? (text : Text) : Option CardImage := (Json.read? text).bind ofJson?

/-- The JSON text of an image, on indented lines. -/
def text (image : CardImage) : Text := image.toJson.pretty

end CardImage

end UsimPhonebook
