import UsimPhonebook.Reference.Tag
import UsimPhonebook.Text.Numeral

/-! # Arguments

The words after the program's name. Switches that are open to every command may stand before or
behind it; one that stands on both sides counts behind it. On one side a switch stands once at
most. A switch with a value takes the part after `=`, or the next word unless that starts with a
dash. Two dashes end the switches.

`Arguments.read` goes through the words one by one and stops at the first that cannot be used, or
that asks for the version or for help.
-/

namespace UsimPhonebook

inductive OutputFormat
  | text
  | json
  deriving DecidableEq, Repr

def OutputFormat.ofName? (name : Text) : Option OutputFormat :=
  if name = "text".toList then some .text
  else if name = "json".toList then some .json
  else none

inductive Theme
  | auto
  | light
  | dark
  | plain
  deriving DecidableEq, Repr

def Theme.ofName? (name : Text) : Option Theme :=
  if name = "auto".toList then some .auto
  else if name = "light".toList then some .light
  else if name = "dark".toList then some .dark
  else if name = "plain".toList then some .plain
  else none

/-- The edit of a field that is asked for. -/
structure FieldEdit where
  kind : FieldKind
  position : Nat
  old : Text
  new : Text
  dryRun : Bool
  deriving DecidableEq, Repr

inductive Job
  | list (nonEmpty : Bool)
  | free
  | table
  | edit (e : FieldEdit)
  deriving DecidableEq, Repr

/-- All that the words say. -/
structure Arguments where
  settingsPath : Option Text
  image : Option Text
  referenceFile : Option Text
  format : OutputFormat
  theme : Option Theme
  quiet : Bool
  job : Job
  deriving DecidableEq, Repr

namespace Arguments

/-- What the words come to. -/
inductive Reading
  | run (arguments : Arguments)
  | version
  | help
  | misuse
  deriving DecidableEq, Repr

/-! ## Switches and commands -/

inductive Switch
  | config
  | image
  | pbrFid
  | format
  | theme
  | quiet
  | help
  | version
  | nonEmpty
  | old
  | new
  | dryRun
  deriving DecidableEq, Repr

/-- The name of a switch behind two dashes. -/
def Switch.name : Switch → Text
  | config => "config".toList
  | image => "image".toList
  | pbrFid => "pbr-fid".toList
  | format => "format".toList
  | theme => "theme".toList
  | quiet => "quiet".toList
  | help => "help".toList
  | version => "version".toList
  | nonEmpty => "non-empty".toList
  | old => "old".toList
  | new => "new".toList
  | dryRun => "dry-run".toList

/-- The letter of a switch behind one dash. -/
def Switch.letter? : Switch → Option Char
  | quiet => some 'q'
  | help => some 'h'
  | version => some 'V'
  | _ => none

def Switch.takesValue : Switch → Bool
  | config | image | pbrFid | format | theme | old | new => true
  | _ => false

def Switch.admits (s : Switch) (value : Text) : Bool :=
  match s with
  | config | image => !value.isEmpty
  | format => (OutputFormat.ofName? value).isSome
  | theme => (Theme.ofName? value).isSome
  | _ => true

inductive Verb
  | list
  | free
  | pbr
  | set (kind : FieldKind)
  deriving DecidableEq, Repr

def Verb.ofWord? (word : Text) : Option Verb :=
  if word = "list".toList then some .list
  else if word = "free".toList then some .free
  else if word = "pbr".toList then some .pbr
  else if word = "set-email".toList then some (.set .email)
  else if word = "set-anr".toList then some (.set .anr)
  else none

/-- The switches that are open to every command. -/
def commonSwitches : List Switch := [.config, .image, .pbrFid, .format, .theme, .quiet, .help]

/-- The switches that may stand before a command, or behind it. -/
def openSwitches : Option Verb → List Switch
  | none => .version :: commonSwitches
  | some .list => .nonEmpty :: commonSwitches
  | some (.set _) => .old :: .new :: .dryRun :: commonSwitches
  | some _ => commonSwitches

/-! ## Reading -/

/-- What the words so far have said. -/
structure Progress where
  verb : Option Verb := none
  /-- the switches before the command -/
  before : List (Switch × Text) := []
  /-- the switches on this side of the command -/
  here : List (Switch × Text) := []
  /-- the switch whose value comes next -/
  awaiting : Option Switch := none
  /-- the switches are at their end -/
  ended : Bool := false
  position : Option Nat := none

namespace Progress

def give (p : Progress) (s : Switch) (value : Text) : Except Reading Progress :=
  if p.here.any (·.1 == s) || !s.admits value then .error .misuse
  else
    match s with
    | .help => .error .help
    | .version => .error .version
    | _ => .ok { p with here := (s, value) :: p.here, awaiting := none }

/-- Takes up a word that is no switch: the command, then the position that an edit asks for. -/
def place (p : Progress) (word : Text) : Except Reading Progress :=
  match p.verb with
  | none =>
    match Verb.ofWord? word with
    | some verb => .ok { p with verb := some verb, before := p.here, here := [] }
    | none => .error .misuse
  | some (.set _) =>
    match p.position, (readNatural? 10 word).filter isMachineWord with
    | none, some n => .ok { p with position := some n }
    | _, _ => .error .misuse
  | some _ => .error .misuse

def long (p : Progress) (word : Text) : Except Reading Progress :=
  let name := word.takeWhile (· != '=')
  match (openSwitches p.verb).find? (·.name == name), word.dropWhile (· != '=') with
  | none, _ => .error .misuse
  | some s, [] => if s.takesValue then .ok { p with awaiting := some s } else p.give s []
  | some s, _ :: value => if s.takesValue then p.give s value else .error .misuse

def letter (p : Progress) (c : Char) : Except Reading Progress :=
  match (openSwitches p.verb).find? (·.letter? == some c) with
  | some s => p.give s []
  | none => .error .misuse

def isDashed : Text → Bool
  | '-' :: _ :: _ => true
  | _ => false

def step (p : Progress) (word : Text) : Except Reading Progress :=
  if p.ended then p.place word
  else
    match p.awaiting with
    | some s => if isDashed word then .error .misuse else p.give s word
    | none =>
      match word with
      | ['-', '-'] => if p.verb.isSome then .ok { p with ended := true } else .error .misuse
      | '-' :: '-' :: rest => p.long rest
      | '-' :: c :: rest => (c :: rest).foldlM letter p
      | _ => p.place word

/-- The value of a switch, from this side of the command if it stands there. -/
def value? (p : Progress) (s : Switch) : Option Text := (p.here.lookup s).or (p.before.lookup s)

def has (p : Progress) (s : Switch) : Bool := (p.value? s).isSome

/-- What a command is to do, if all that it needs was said. -/
def job? (p : Progress) : Option Job :=
  match p.verb with
  | some .list => some (.list (p.has .nonEmpty))
  | some .free => some .free
  | some .pbr => some .table
  | some (.set kind) =>
    p.position.map fun position =>
      .edit { kind, position, old := (p.value? .old).getD [], new := (p.value? .new).getD [],
              dryRun := p.has .dryRun }
  | none => none

def finish (p : Progress) : Reading :=
  match p.awaiting, p.job? with
  | none, some job =>
    .run
      { settingsPath := p.value? .config,
        image := p.value? .image,
        referenceFile := p.value? .pbrFid,
        format := ((p.value? .format).bind OutputFormat.ofName?).getD .text,
        theme := (p.value? .theme).bind Theme.ofName?,
        quiet := p.has .quiet,
        job }
  | _, _ => .misuse

end Progress

/-- What the words of a command line come to. -/
def read (words : List Text) : Reading :=
  match words.foldlM Progress.step {} with
  | .ok p => p.finish
  | .error reading => reading

end Arguments

end UsimPhonebook
