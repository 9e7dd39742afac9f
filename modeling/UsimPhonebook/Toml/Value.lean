import UsimPhonebook.Text.Basic

/-! # TOML documents

A document as a tree of values and tables. Texts are read; of a number, a truth value or a date it
is kept how it is written.

A table remembers how it came to be, since that settles what may still be added to it: by its own
header, as the parent of a table with a header, or as the parent in a dotted key. `Toml.open` takes
up a table for a header, `Toml.openItem` a new item of an array of tables, and `Toml.put` adds a
pair to a table; each of them is `none` where the document defines something twice.
-/

namespace UsimPhonebook

/-- How a table came to be. -/
inductive TableForm
  /-- by its own header -/
  | written
  /-- as the parent in a header -/
  | implied
  /-- as the parent in a dotted key -/
  | dotted
  deriving DecidableEq, Repr

/-- A part of a document. -/
inductive Toml
  | string (text : Text)
  /-- a number or a truth value as it is written -/
  | plain (literal : Text)
  | dateTime (literal : Text)
  | array (items : List Toml)
  | inlineTable (members : List (Text × Toml))
  | table (form : TableForm) (members : List (Text × Toml))
  /-- an array of tables, the last one last -/
  | tables (items : List Toml)
  deriving Repr, Inhabited

namespace Toml

def emptyDocument : Toml := table .written []

def member? (members : List (Text × Toml)) (key : Text) : Option Toml := members.lookup key

/-- Gives a member a value; a new member comes last. -/
def setMember (key : Text) (value : Toml) : List (Text × Toml) → List (Text × Toml)
  | [] => [(key, value)]
  | (k, v) :: rest => if k = key then (k, value) :: rest else (k, v) :: setMember key value rest

/-- The members of a table of either kind. -/
def members? : Toml → Option (List (Text × Toml))
  | table _ members => some members
  | inlineTable members => some members
  | _ => none

/-- Changes the last item of an array of tables. -/
def changeLast (f : Toml → Option Toml) : List Toml → Option (List Toml)
  | [] => none
  | [last] => (f last).map ([·])
  | item :: rest => (changeLast f rest).map (item :: ·)

/-- Changes the table that a path of keys leads to. A table that is not there is made, as the
parent of a header or of a dotted key. A dotted key does not lead into a table that has a header. -/
def changeAt (isDotted : Bool) (f : Toml → Option Toml) : List Text → Toml → Option Toml
  | [], t => f t
  | key :: path, table form members =>
    let into := changeAt isDotted f path
    let child? :=
      match member? members key with
      | none => into (table (if isDotted then .dotted else .implied) [])
      | some (tables items) => (changeLast into items).map tables
      | some (table .written inner) => if isDotted then none else into (table .written inner)
      | some (table form inner) => into (table form inner)
      | some _ => none
    child?.map fun child => table form (setMember key child members)
  | _ :: _, _ => none

/-- Takes up a member of a table for its header: a new one, or one that was only implied. -/
def openMember (key : Text) : Toml → Option Toml
  | table form members =>
    match member? members key with
    | none => some (table form (setMember key (table .written []) members))
    | some (table .implied inner) =>
      some (table form (setMember key (table .written inner) members))
    | some _ => none
  | _ => none

/-- Adds an item to the array of tables that is a member of a table. -/
def addItem (key : Text) : Toml → Option Toml
  | table form members =>
    match member? members key with
    | none => some (table form (setMember key (tables [table .written []]) members))
    | some (tables items) =>
      some (table form (setMember key (tables (items ++ [table .written []])) members))
    | some _ => none
  | _ => none

/-- Adds a pair to a table. The last parent of a dotted key must have come from a dotted key. -/
def addPair (isDotted : Bool) (key : Text) (value : Toml) : Toml → Option Toml
  | table form members =>
    if isDotted ≠ decide (form = .dotted) then none
    else
      match member? members key with
      | none => some (table form (setMember key value members))
      | some _ => none
  | _ => none

/-- Takes up the table of a header. -/
def openTable (path : List Text) (key : Text) (document : Toml) : Option Toml :=
  changeAt false (openMember key) path document

/-- Takes up a new item of the array of tables of a header. -/
def openItem (path : List Text) (key : Text) (document : Toml) : Option Toml :=
  changeAt false (addItem key) path document

/-- Adds a pair with a dotted key to a table. -/
def put (path : List Text) (key : Text) (value : Toml) (t : Toml) : Option Toml :=
  changeAt true (addPair (!path.isEmpty) key value) path t

/-- The inline table of these pairs. -/
def ofPairs? (pairs : List (List Text × Text × Toml)) : Option Toml :=
  match pairs.foldlM (fun t (path, key, value) => put path key value t) emptyDocument with
  | some t => t.members?.map inlineTable
  | none => none

end Toml

end UsimPhonebook
