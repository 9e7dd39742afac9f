import UsimPhonebook.Json.Value

/-! # Printing JSON

A document is printed in one of two layouts: on one line without blanks (`Json.compact`), or with
each item and member on a line of its own, two blanks deeper than what holds it (`Json.pretty`). The
layouts differ only in blanks (`Json.Layout`). Empty arrays and objects stay on one line in both.
-/

namespace UsimPhonebook.Json

def quote : Char := '\x22'

def backslash : Char := '\x5c'

/-- The letter that stands for a character after a backslash. -/
def shortEscape? (c : Char) : Option Char :=
  if c = quote ∨ c = backslash then some c
  else if c = '\x08' then some 'b'
  else if c = '\t' then some 't'
  else if c = '\n' then some 'n'
  else if c = '\x0c' then some 'f'
  else if c = '\r' then some 'r'
  else none

def lowerDigit (n : Nat) : Char := if n < 10 then Char.ofNat (48 + n) else Char.ofNat (87 + n)

/-- A character inside a string. Quotes, backslashes and control characters are escaped. -/
def escaped (c : Char) : Text :=
  match shortEscape? c with
  | some letter => [backslash, letter]
  | none =>
    if c.toNat < 0x20 then
      [backslash, 'u', '0', '0', lowerDigit (c.toNat / 16), lowerDigit (c.toNat % 16)]
    else [c]

def quoted (t : Text) : Text := quote :: t.flatMap escaped ++ [quote]

/-- Where the parts of an array or object stand. -/
inductive Layout
  /-- all on one line -/
  | inline
  /-- each on a line of its own, in something that is `depth` levels deep -/
  | lines (depth : Nat)

namespace Layout

def inner : Layout → Layout
  | inline => inline
  | lines depth => lines (depth + 1)

/-- The blanks before a line. -/
def newLine : Layout → Text
  | inline => []
  | lines depth => '\n' :: List.replicate (2 * depth) ' '

/-- The blanks between a key and its value. -/
def space : Layout → Text
  | inline => []
  | lines _ => [' ']

/-- The parts of an array or object between its brackets, separated by commas. -/
def enclose (layout : Layout) (opening closing : Char) (parts : List Text) : Text :=
  if parts.isEmpty then [opening, closing]
  else
    opening :: Text.joinWith [','] (parts.map (layout.inner.newLine ++ ·))
      ++ (layout.newLine ++ [closing])

end Layout

/-- The text of a value that holds no others. -/
def atom : Json → Text
  | bool true => ['t', 'r', 'u', 'e']
  | bool false => ['f', 'a', 'l', 's', 'e']
  | number literal => literal
  | string t => quoted t
  | _ => ['n', 'u', 'l', 'l']

mutual

def print (layout : Layout) : Json → Text
  | array items => layout.enclose '[' ']' (printItems layout.inner items)
  | object members => layout.enclose '\x7b' '\x7d' (printMembers layout.inner members)
  | j => atom j

def printItems (layout : Layout) : List Json → List Text
  | [] => []
  | j :: rest => print layout j :: printItems layout rest

def printMembers (layout : Layout) : List (Text × Json) → List Text
  | [] => []
  | (key, j) :: rest =>
    (quoted key ++ ':' :: (layout.space ++ print layout j)) :: printMembers layout rest

end

/-- A document on one line. -/
def compact (j : Json) : Text := j.print .inline

/-- A document on indented lines. -/
def pretty (j : Json) : Text := j.print (.lines 0)

end UsimPhonebook.Json
