import UsimPhonebook.Card.Image
import UsimPhonebook.Files.Task
import UsimPhonebook.Report

/-! # Card files

A phonebook session over a card image that is kept in a file.

* `CardFile.ofText` opens the image in a text, and `CardFile.openAt` the one in a file.
* `CardFile.update` edits the card in memory; the file changes when `CardFile.save` writes the
  image of the card.
-/

namespace UsimPhonebook

inductive CardFileError
  | unreadable (path : Text) (cause : FileError)
  | malformed (path : Text)
  | unwritable (path : Text) (cause : FileError)
  | phonebook (cause : Error)
  deriving DecidableEq, Repr

def CardFileError.message : CardFileError → String
  | unreadable path cause =>
    "failed to read card image " ++ String.ofList path ++ ": " ++ cause.message
  | malformed path => "failed to parse card image " ++ String.ofList path
  | unwritable path cause =>
    "failed to write card image " ++ String.ofList path ++ ": " ++ cause.message
  | phonebook cause => cause.message

/-- A session and the path of the image that its card came from. -/
structure CardFile where
  path : Text
  session : Session

namespace CardFile

/-- The session over the image in a text, with its phonebook loaded. -/
def ofText (path : Text) (referenceFile : FileId) (text : Text) : Except CardFileError CardFile :=
  match CardImage.read? text with
  | none => .error (.malformed path)
  | some image =>
    match Card.ofImage image with
    | .error e => .error (.phonebook e)
    | .ok card =>
      match Session.load.perform (.start card { referenceFile }) with
      | (.error e, _) => .error (.phonebook e)
      | (.ok _, session) => .ok { path, session }

def openAt (path : Text) (referenceFile : FileId) : FileTask (Except CardFileError CardFile) := do
  match ← FileTask.readText path with
  | .ok text => return ofText path referenceFile text
  | .error e => return .error (.unreadable path e)

/-- Edits a field of the entry at a position; gives the report of the entry. -/
def update (f : CardFile) (position : Nat) (old new : Text) (kind : FieldKind) :
    Except CardFileError EntryReport × CardFile :=
  match (Session.update position old new kind).perform f.session with
  | (.error e, session) => (.error (.phonebook e), { f with session })
  | (.ok (), session) =>
    match session.entryReport? position with
    | some report => (.ok report, { f with session })
    | none => (.error (.phonebook (.indexOutOfRange position)), { f with session })

def text (f : CardFile) : Text := f.session.card.toImage.text

def save (f : CardFile) : FileTask (Except CardFileError Unit) := do
  match ← FileTask.writeText f.path f.text with
  | .ok () => return .ok ()
  | .error e => return .error (.unwritable f.path e)

end CardFile

end UsimPhonebook
