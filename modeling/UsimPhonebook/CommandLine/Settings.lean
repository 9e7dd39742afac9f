import UsimPhonebook.FileId
import UsimPhonebook.Toml.Reader

/-! # Settings

What the command line reads of its configuration file: the card image, the reference file, and the
theme, each of them a text that may be left out. Whatever else the file holds is passed over.

A section may also be written as an array of its values in order, which must all be there then.
-/

namespace UsimPhonebook

/-- The texts of the configuration file. -/
structure Settings where
  image : Option Text := none
  referenceFile : Option Text := none
  theme : Option Text := none
  deriving DecidableEq, Repr

namespace Settings

/-- A text that a section may hold; `none` if there is something else in its place. -/
def text? (members : List (Text × Toml)) (key : String) : Option (Option Text) :=
  match Toml.member? members key.toList with
  | none => some none
  | some (.string t) => some (some t)
  | some _ => none

/-- The texts of a section with these keys; `none` if it is no section. A date in place of a
section holds nothing. -/
def section? (keys : List String) : Toml → Option (List (Option Text))
  | .dateTime _ => some (keys.map fun _ => none)
  | .array items =>
    if items.length < keys.length then none
    else (items.take keys.length).mapM fun
      | .string t => some (some t)
      | _ => none
  | t =>
    match t.members? with
    | some members => keys.mapM (text? members)
    | none => none

/-- The texts of the section under `name`, none of them if it is not there. -/
def sectionAt? (members : List (Text × Toml)) (name : String) (keys : List String) :
    Option (List (Option Text)) :=
  match Toml.member? members name.toList with
  | none => some (keys.map fun _ => none)
  | some t => section? keys t

def ofToml? (document : Toml) : Option Settings := do
  let members ← document.members?
  let card ← sectionAt? members "card" ["image", "pbr_fid"]
  let output ← sectionAt? members "output" ["theme"]
  return { image := card[0]?.join, referenceFile := card[1]?.join, theme := output[0]?.join }

def read? (t : Text) : Option Settings := (Toml.read? t).bind ofToml?

end Settings

/-- Less any number of `0x` in front. -/
def dropHexMarks (mark : Char) : Text → Text
  | '0' :: c :: rest => if c = mark then dropHexMarks mark rest else '0' :: c :: rest
  | t => t

/-- The identifier in a text of hexadecimal digits, which may be marked as such. -/
def FileId.read? (t : Text) : Option FileId :=
  (Hex.readWord? (dropHexMarks 'X' (dropHexMarks 'x' t))).map FileId.mk

end UsimPhonebook
