import UsimPhonebook.Text.Numeral

/-! # JSON values

A document as a value. A number is kept as it is written, since it is up to its reader what range
it may have, and the members of an object are kept in the order in which they stand.
-/

namespace UsimPhonebook

inductive Json
  | null
  | bool (b : Bool)
  | number (literal : Text)
  | string (text : Text)
  /-- a string, or an object with a key, that holds half of a surrogate pair: it can be passed
  over, but it is no text -/
  | unreadable
  | array (items : List Json)
  | object (members : List (Text × Json))
  deriving Repr, Inhabited

namespace Json

def ofNat (n : Nat) : Json := number (decimal n)

def ofOption {α : Type} (f : α → Json) : Option α → Json
  | some a => f a
  | none => null

def text? : Json → Option Text
  | string t => some t
  | _ => none

def items? : Json → Option (List Json)
  | array items => some items
  | _ => none

def members? : Json → Option (List (Text × Json))
  | object members => some members
  | _ => none

/-- A natural number of a machine word, written with digits alone. -/
def machineWord? : Json → Option Nat
  | number literal => (readDigits? 10 0 literal).filter isMachineWord
  | _ => none

/-- The value of a member that must be there once. -/
def onlyMember? (members : List (Text × Json)) (key : Text) : Option Json :=
  match members.filter (·.1 = key) with
  | [(_, value)] => some value
  | _ => none

end Json

end UsimPhonebook
