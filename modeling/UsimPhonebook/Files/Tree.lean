import UsimPhonebook.Text.Basic

/-! # File trees

A file tree holds folders and texts. A path is walked from the working folder, or from the root if
it starts with a slash, one component after the other; each component but the last must lead to a
folder. The lengths of a path and of each name in it are bounded.

* `FileTree.holds` tells whether there is something at a path.
* `FileTree.read` and `FileTree.write` get and set the text of a file.
-/

namespace UsimPhonebook

inductive FileError
  | notFound
  /-- a component of the path leads through a file -/
  | notFolder
  /-- the path leads to a folder -/
  | isFolder
  /-- the path, or a component of it, is longer than the system takes -/
  | nameTooLong
  /-- the path holds a character that no path can hold -/
  | badName
  /-- a cause in the words of the system -/
  | other (words : String)
  deriving DecidableEq, Repr

def FileError.message : FileError → String
  | notFound => "No such file or directory (os error 2)"
  | notFolder => "Not a directory (os error 20)"
  | isFolder => "Is a directory (os error 21)"
  | nameTooLong => "File name too long (os error 36)"
  | badName => "file name contained an unexpected NUL byte"
  | other words => words

/-- What stands at a place of a file tree. -/
inductive FileNode
  | folder
  | file (text : Text)
  deriving DecidableEq, Repr

/-- The nodes below the root, each under the names on the way to it, and the working folder. -/
structure FileTree where
  nodes : List (List Text × FileNode) := []
  workingFolder : List Text := []
  deriving DecidableEq, Repr

namespace FileTree

def splitAt (separator : Char) : Text → List Text
  | [] => [[]]
  | c :: rest =>
    if c = separator then [] :: splitAt separator rest
    else
      match splitAt separator rest with
      | part :: parts => (c :: part) :: parts
      | [] => [[c]]

/-- The node at a place; the root is a folder. -/
def node? (tree : FileTree) (place : List Text) : Option FileNode :=
  if place = [] then some .folder else tree.nodes.lookup place

/-- The place to which a component leads from a folder. -/
def follow (place : List Text) (component : Text) : List Text :=
  if component = [] ∨ component = ['.'] then place
  else if component = ['.', '.'] then place.dropLast
  else place ++ [component]

/-- The longest name of a node in bytes. -/
def maxNameSize : Nat := 255

/-- The longest path in bytes. -/
def maxPathSize : Nat := 4095

def byteSize (t : Text) : Nat := (String.ofList t).utf8ByteSize

/-- Walks along components, each of them from a folder. -/
def walk (tree : FileTree) : List Text → List Text → Except FileError (List Text)
  | place, [] => .ok place
  | place, component :: rest =>
    match tree.node? place with
    | some .folder =>
      if maxNameSize < byteSize component then .error .nameTooLong
      else walk tree (follow place component) rest
    | some (.file _) => .error .notFolder
    | none => .error .notFound

/-- The place to which a path leads. The empty path leads nowhere. -/
def locate (tree : FileTree) (path : Text) : Except FileError (List Text) :=
  if path.contains '\x00' then .error .badName
  else if maxPathSize < byteSize path then .error .nameTooLong
  else
    match path with
    | [] => .error .notFound
    | '/' :: rest => tree.walk [] (splitAt '/' rest)
    | path => tree.walk tree.workingFolder (splitAt '/' path)

/-- There is a folder or a file at a path. For a path that cannot be walked the answer is no. -/
def holds (tree : FileTree) (path : Text) : Bool :=
  match tree.locate path with
  | .ok place => (tree.node? place).isSome
  | .error _ => false

def textAt (tree : FileTree) (place : List Text) : Except FileError Text :=
  match tree.node? place with
  | some (.file text) => .ok text
  | some .folder => .error .isFolder
  | none => .error .notFound

def read (tree : FileTree) (path : Text) : Except FileError Text :=
  match tree.locate path with
  | .ok place => tree.textAt place
  | .error e => .error e

def setText (tree : FileTree) (place : List Text) (text : Text) : FileTree :=
  { tree with nodes := (place, .file text) :: tree.nodes.filter (·.1 ≠ place) }

/-- Gives a file a text; a file that was not there is made. -/
def write (tree : FileTree) (path text : Text) : Except FileError FileTree :=
  match tree.locate path with
  | .ok place =>
    match tree.node? place with
    | some .folder => .error .isFolder
    | _ => .ok (tree.setText place text)
  | .error e => .error e

/-- Removes a folder and everything in it. -/
def removeFolder (tree : FileTree) (place : List Text) : FileTree :=
  { tree with nodes := tree.nodes.filter fun (there, _) => !place.isPrefixOf there }

end FileTree

end UsimPhonebook
