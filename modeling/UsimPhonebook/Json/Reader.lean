import UsimPhonebook.Json.Printer
import UsimPhonebook.Text.Units

/-! # Reading JSON

The reader goes through a document character by character. Its state is a stack of the arrays and
objects that are still open and what may come next; a character that may not come refuses the
document (`Reader.step`). At the end there must be one whole value (`Json.read?`).

Blanks between the parts are skipped. A number is taken as it is written, and a string by its
16-bit units, so that an escaped surrogate pair is one character.
-/

namespace UsimPhonebook.Json

namespace Reader

/-- An array or object that is still open, what it holds so far last item first. A key that is no
text is `none`. -/
inductive Frame
  | array (items : List Json)
  /-- `key` belongs to the value that comes next -/
  | object (members : List (Option Text × Json)) (key : Option Text)

/-- Where the reader is inside a number. -/
inductive NumberPart
  | minus
  | zero
  | whole
  | point
  | fraction
  | exponent
  | exponentSign
  | exponentDigits
  deriving DecidableEq, Repr

/-- Where the reader is inside a string. -/
inductive StringPart
  | plain
  | escape
  /-- `count` hexadecimal digits of an escaped unit are read and have this value -/
  | unit (count value : Nat)
  deriving DecidableEq, Repr

/-- What may come next. -/
inductive Mode
  | value
  /-- a first item or the end of the array -/
  | firstItem
  | key
  /-- a first key or the end of the object -/
  | firstKey
  | colon
  /-- a comma or the end of what holds the value -/
  | separator
  /-- the document is complete -/
  | finished (j : Json)
  /-- inside a string of which these units are read, last one first -/
  | string (isKey : Bool) (units : List UInt16) (part : StringPart)
  /-- inside a number of which these characters are read, last one first -/
  | number (read : Text) (part : NumberPart)
  /-- inside a word of which this is left to come -/
  | word (rest : Text) (j : Json)

/-- The open arrays and objects, innermost first, and what may come next. -/
structure State where
  stack : List Frame
  mode : Mode

/-- A blank between the parts of a document. -/
def isBlank (c : Char) : Bool := c == ' ' || c == '\n' || c == '\t' || c == '\r'

/-- Puts a value where it belongs. -/
def complete (j : Json) : List Frame → State
  | [] => ⟨[], .finished j⟩
  | .array items :: rest => ⟨.array (j :: items) :: rest, .separator⟩
  | .object members key :: rest => ⟨.object ((key, j) :: members) none :: rest, .separator⟩

/-- The object of these members, last one first. -/
def objectOf (members : List (Option Text × Json)) : Json :=
  match members.reverse.mapM fun (key, j) => key.map fun key => (key, j) with
  | some members => .object members
  | none => .unreadable

/-- The characters after the first one of a word. -/
def startWord (c : Char) : Option (Text × Json) :=
  if c = 'n' then some (['u', 'l', 'l'], .null)
  else if c = 't' then some (['r', 'u', 'e'], .bool true)
  else if c = 'f' then some (['a', 'l', 's', 'e'], .bool false)
  else none

def isDigit (c : Char) : Bool := '0' ≤ c && c ≤ '9'

/-- The part of a number that starts with this character. -/
def startNumber (c : Char) : Option NumberPart :=
  if c = '-' then some .minus
  else if c = '0' then some .zero
  else if isDigit c then some .whole
  else none

/-- The part of a number after one more character; `none` if it is not one of the number. -/
def nextPart (part : NumberPart) (c : Char) : Option NumberPart :=
  match part with
  | .minus => if c = '0' then some .zero else if isDigit c then some .whole else none
  | .zero => afterWhole
  | .whole => if isDigit c then some .whole else afterWhole
  | .point => if isDigit c then some .fraction else none
  | .fraction => if isDigit c then some .fraction else afterFraction
  | .exponent =>
    if c = '+' ∨ c = '-' then some .exponentSign
    else if isDigit c then some .exponentDigits else none
  | .exponentSign => if isDigit c then some .exponentDigits else none
  | .exponentDigits => if isDigit c then some .exponentDigits else none
where
  /-- What may follow the fraction. -/
  afterFraction : Option NumberPart := if c = 'e' ∨ c = 'E' then some .exponent else none
  /-- What may follow the whole part. -/
  afterWhole : Option NumberPart := if c = '.' then some .point else afterFraction

/-- A number may end here. -/
def NumberPart.isWhole : NumberPart → Bool
  | zero | whole | fraction | exponentDigits => true
  | _ => false

/-- A value starts with this character. -/
def beginValue (stack : List Frame) (c : Char) : Option State :=
  if c = '[' then some ⟨.array [] :: stack, .firstItem⟩
  else if c = '\x7b' then some ⟨.object [] none :: stack, .firstKey⟩
  else if c = quote then some ⟨stack, .string false [] .plain⟩
  else
    match startWord c, startNumber c with
    | some (rest, j), _ => some ⟨stack, .word rest j⟩
    | none, some part => some ⟨stack, .number [c] part⟩
    | none, none => none

/-- The innermost array or object ends with this character. -/
def close (stack : List Frame) (c : Char) : Option State :=
  match stack with
  | .array items :: rest => if c = ']' then some (complete (.array items.reverse) rest) else none
  | .object members _ :: rest =>
    if c = '\x7d' then some (complete (objectOf members) rest) else none
  | [] => none

/-- After a value inside an array or object. -/
def afterValue (stack : List Frame) (c : Char) : Option State :=
  if isBlank c then some ⟨stack, .separator⟩
  else if c = ',' then
    match stack with
    | .array _ :: _ => some ⟨stack, .value⟩
    | .object _ _ :: _ => some ⟨stack, .key⟩
    | [] => none
  else close stack c

/-- After the value that a state has just completed. -/
def afterComplete (s : State) (c : Char) : Option State :=
  match s.mode with
  | .finished _ => if isBlank c then some s else none
  | _ => afterValue s.stack c

def endString (stack : List Frame) (isKey : Bool) (units : List UInt16) : Option State :=
  let text? := Units.toText? units.reverse
  if isKey then
    match stack with
    | .object members _ :: rest => some ⟨.object members text? :: rest, .colon⟩
    | _ => none
  else
    match text? with
    | some t => some (complete (.string t) stack)
    | none => some (complete .unreadable stack)

/-- The character that a letter stands for after a backslash. -/
def unescape? (c : Char) : Option Char :=
  if c = quote ∨ c = backslash ∨ c = '/' then some c
  else if c = 'b' then some '\x08'
  else if c = 't' then some '\t'
  else if c = 'n' then some '\n'
  else if c = 'f' then some '\x0c'
  else if c = 'r' then some '\r'
  else none

def stepString (stack : List Frame) (isKey : Bool) (units : List UInt16) (part : StringPart)
    (c : Char) : Option State :=
  match part with
  | .plain =>
    if c = quote then endString stack isKey units
    else if c = backslash then some ⟨stack, .string isKey units .escape⟩
    else if c.toNat < 0x20 then none
    else some ⟨stack, .string isKey ((Units.ofChar c).reverse ++ units) .plain⟩
  | .escape =>
    if c = 'u' then some ⟨stack, .string isKey units (.unit 0 0)⟩
    else
      match unescape? c with
      | some c => some ⟨stack, .string isKey ((Units.ofChar c).reverse ++ units) .plain⟩
      | none => none
  | .unit count value =>
    match Hex.digitValue? c with
    | some d =>
      if count = 3 then
        some ⟨stack, .string isKey (UInt16.ofNat (value * 16 + d) :: units) .plain⟩
      else some ⟨stack, .string isKey units (.unit (count + 1) (value * 16 + d))⟩
    | none => none

/-- One character of a document. -/
def step (s : State) (c : Char) : Option State :=
  match s.mode with
  | .value => if isBlank c then some s else beginValue s.stack c
  | .firstItem =>
    if isBlank c then some s else if c = ']' then close s.stack c else beginValue s.stack c
  | .key => if isBlank c then some s else if c = quote then key else none
  | .firstKey => if isBlank c then some s else if c = quote then key else close s.stack c
  | .colon =>
    if isBlank c then some s else if c = ':' then some ⟨s.stack, .value⟩ else none
  | .separator => afterValue s.stack c
  | .finished _ => if isBlank c then some s else none
  | .string isKey units part => stepString s.stack isKey units part c
  | .number read part =>
    match nextPart part c with
    | some part => some ⟨s.stack, .number (c :: read) part⟩
    | none =>
      if part.isWhole then afterComplete (complete (.number read.reverse) s.stack) c else none
  | .word rest j =>
    match rest with
    | [] => none
    | [last] => if c = last then some (complete j s.stack) else none
    | next :: rest => if c = next then some ⟨s.stack, .word rest j⟩ else none
where
  /-- A key starts. -/
  key : Option State := some ⟨s.stack, .string true [] .plain⟩

def result? (s : State) : Option Json :=
  match s.stack, s.mode with
  | [], .finished j => some j
  | [], .number read part => if part.isWhole then some (.number read.reverse) else none
  | _, _ => none

end Reader

def read? (document : Text) : Option Json :=
  (document.foldlM Reader.step ⟨[], .value⟩).bind Reader.result?

end UsimPhonebook.Json
