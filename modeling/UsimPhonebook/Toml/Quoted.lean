import UsimPhonebook.Text.Numeral
import UsimPhonebook.Text.Units
import UsimPhonebook.Toml.Value

/-! # Quoted text

Text between quotes, in one of four forms: with double quotes a backslash escapes, with single
quotes every character stands for itself, and three quotes of either sort allow line ends inside.

A reader goes through the characters one by one. Between three quotes it counts the quotes that it
meets: one or two belong to the text, three end it, and so do two quotes of text before three.
-/

namespace UsimPhonebook.Toml

def doubleQuote : Char := '\x22'

def singleQuote : Char := '\x27'

def backslash : Char := '\x5c'

/-- A character that may stand in a comment or in quotes: no control character but the tab. -/
def isVisible (c : Char) : Bool := c == '\t' || (0x20 ≤ c.toNat && c.toNat != 0x7F)

/-- The character that a letter stands for after a backslash. -/
def shortEscape? (c : Char) : Option Char :=
  if c = doubleQuote ∨ c = backslash then some c
  else if c = 'b' then some '\x08'
  else if c = 't' then some '\t'
  else if c = 'n' then some '\n'
  else if c = 'f' then some '\x0c'
  else if c = 'r' then some '\r'
  else none

/-- The number of digits after a letter that escapes a code point. -/
def codeLength? (c : Char) : Option Nat :=
  if c = 'u' then some 4 else if c = 'U' then some 8 else none

/-- Where a reader is inside a quoted text. -/
inductive QuotedPart
  | plain
  /-- this many quotes were met in a row -/
  | quotes (count : Nat)
  | escape
  /-- this many digits of a code point are to come, and those before have this value -/
  | code (left value : Nat)
  /-- behind a backslash at the end of a line, with or without the line end itself -/
  | fold (pastLineEnd : Bool)
  deriving DecidableEq, Repr

/-- Text in single quotes. -/
def readLiteral (read : Text) : Text → Option (Text × Text)
  | [] => none
  | c :: rest =>
    if c = singleQuote then some (read.reverse, rest)
    else if isVisible c then readLiteral (c :: read) rest
    else none

/-- Text in double quotes. -/
def readBasic (read : Text) (part : QuotedPart) : Text → Option (Text × Text)
  | [] => none
  | c :: rest =>
    match part with
    | .escape =>
      match shortEscape? c, codeLength? c with
      | some e, _ => readBasic (e :: read) .plain rest
      | none, some digits => readBasic read (.code digits 0) rest
      | none, none => none
    | .code left value =>
      match Hex.digitValue? c with
      | none => none
      | some d =>
        if 1 < left then readBasic read (.code (left - 1) (value * 16 + d)) rest
        else if (value * 16 + d).isValidChar then
          readBasic (Char.ofNat (value * 16 + d) :: read) .plain rest
        else none
    | _ =>
      if c = doubleQuote then some (read.reverse, rest)
      else if c = backslash then readBasic read .escape rest
      else if isVisible c then readBasic (c :: read) .plain rest
      else none

/-- Quotes that belong to the text. -/
def pushQuotes (quote : Char) (count : Nat) (read : Text) : Text :=
  List.replicate count quote ++ read

/-- Text in three single quotes. -/
def readLongLiteral (read : Text) (quotes : Nat) : Text → Option (Text × Text)
  | [] => if 3 ≤ quotes then some ((pushQuotes singleQuote (quotes - 3) read).reverse, []) else none
  | c :: rest =>
    if c = singleQuote then
      if quotes = 4 then some ((pushQuotes singleQuote 2 read).reverse, rest)
      else readLongLiteral read (quotes + 1) rest
    else if 3 ≤ quotes then
      some ((pushQuotes singleQuote (quotes - 3) read).reverse, c :: rest)
    else
      let read := pushQuotes singleQuote quotes read
      if isVisible c || c == '\n' then readLongLiteral (c :: read) 0 rest
      else if c = '\r' ∧ rest.head? = some '\n' then readLongLiteral read 0 rest
      else none

/-- Text in three double quotes. A backslash at the end of a line takes the blanks and line ends
that follow out of the text. -/
def readLongBasic (read : Text) (part : QuotedPart) : Text → Option (Text × Text)
  | [] =>
    match part with
    | .quotes count =>
      if 3 ≤ count then some ((pushQuotes doubleQuote (count - 3) read).reverse, []) else none
    | _ => none
  | c :: rest =>
    let text (read : Text) : Option (Text × Text) :=
      if c = doubleQuote then readLongBasic read (.quotes 1) rest
      else if c = backslash then readLongBasic read .escape rest
      else if isVisible c || c == '\n' then readLongBasic (c :: read) .plain rest
      else if c = '\r' ∧ rest.head? = some '\n' then readLongBasic read .plain rest
      else none
    match part with
    | .plain => text read
    | .quotes count =>
      if c = doubleQuote then
        if count = 4 then some ((pushQuotes doubleQuote 2 read).reverse, rest)
        else readLongBasic read (.quotes (count + 1)) rest
      else if 3 ≤ count then some ((pushQuotes doubleQuote (count - 3) read).reverse, c :: rest)
      else text (pushQuotes doubleQuote count read)
    | .escape =>
      match shortEscape? c, codeLength? c with
      | some e, _ => readLongBasic (e :: read) .plain rest
      | none, some digits => readLongBasic read (.code digits 0) rest
      | none, none =>
        if c = ' ' ∨ c = '\t' then readLongBasic read (.fold false) rest
        else if c = '\n' then readLongBasic read (.fold true) rest
        else if c = '\r' ∧ rest.head? = some '\n' then readLongBasic read (.fold false) rest
        else none
    | .code left value =>
      match Hex.digitValue? c with
      | none => none
      | some d =>
        if 1 < left then readLongBasic read (.code (left - 1) (value * 16 + d)) rest
        else if (value * 16 + d).isValidChar then
          readLongBasic (Char.ofNat (value * 16 + d) :: read) .plain rest
        else none
    | .fold pastLineEnd =>
      if c = ' ' ∨ c = '\t' then readLongBasic read (.fold pastLineEnd) rest
      else if c = '\n' then readLongBasic read (.fold true) rest
      else if c = '\r' ∧ rest.head? = some '\n' then readLongBasic read (.fold pastLineEnd) rest
      else if pastLineEnd then text read
      else none

/-- Less a line end in front, which does not belong to a text in three quotes. -/
def afterFirstLineEnd : Text → Text
  | '\n' :: rest => rest
  | '\r' :: '\n' :: rest => rest
  | t => t

/-- A text in quotes on one line, as in a key; the first quote is read already. -/
def readShort (quote : Char) (t : Text) : Option (Text × Text) :=
  if quote = doubleQuote then readBasic [] .plain t else readLiteral [] t

/-- A text in quotes of any form; the first quote is read already. -/
def readQuoted (quote : Char) (t : Text) : Option (Text × Text) :=
  match t with
  | a :: b :: rest =>
    if a = quote ∧ b = quote then
      if quote = doubleQuote then readLongBasic [] .plain (afterFirstLineEnd rest)
      else readLongLiteral [] 0 (afterFirstLineEnd rest)
    else readShort quote t
  | _ => readShort quote t

end UsimPhonebook.Toml
