import UsimPhonebook.Text.Basic

/-! # 16-bit units

Text as 16-bit units: a character up to `U+FFFF` is one unit, any other is a high surrogate
followed by a low one. A surrogate without its partner is no text.

* `Units.ofText` writes, `Units.toText?` reads and refuses a lone surrogate, and
  `Units.toTextLossy` puts `U+FFFD` in its place.
-/

namespace UsimPhonebook.Units

/-- The character that stands for what is no character. -/
def replacement : Char := '\uFFFD'

/-- The character of a code point, `replacement` for what is none. -/
def charAt (code : Nat) : Char :=
  if code.isValidChar then Char.ofNat code else replacement

/-- A surrogate: the first or the second half of a character above `U+FFFF`. -/
def isSurrogate (u : UInt16) : Bool := 0xD800 ≤ u.toNat && u.toNat < 0xE000

/-- A high surrogate, the first half of a pair. -/
def isHigh (u : UInt16) : Bool := 0xD800 ≤ u.toNat && u.toNat < 0xDC00

/-- A low surrogate, the second half of a pair. -/
def isLow (u : UInt16) : Bool := 0xDC00 ≤ u.toNat && u.toNat < 0xE000

/-- The character of a high and a low surrogate. -/
def paired (hi lo : UInt16) : Char :=
  Char.ofNat (0x10000 + (hi.toNat - 0xD800) * 0x400 + (lo.toNat - 0xDC00))

/-- The character of a unit that stands alone; a surrogate is none. -/
def single (u : UInt16) : Option Char :=
  if isSurrogate u then none else some (Char.ofNat u.toNat)

/-- The characters of a run of units, `none` for each lone surrogate. -/
def chars : List UInt16 → List (Option Char)
  | [] => []
  | [u] => [single u]
  | u :: v :: rest =>
    if isHigh u && isLow v then some (paired u v) :: chars rest
    else single u :: chars (v :: rest)

/-- The units of a character. -/
def ofChar (c : Char) : List UInt16 :=
  if c.toNat < 0x10000 then [UInt16.ofNat c.toNat]
  else [UInt16.ofNat (0xD800 + (c.toNat - 0x10000) / 0x400),
        UInt16.ofNat (0xDC00 + (c.toNat - 0x10000) % 0x400)]

def ofText (t : Text) : List UInt16 := t.flatMap ofChar

/-- The text of the units, `none` if a surrogate has no partner. -/
def toText? (us : List UInt16) : Option Text := (chars us).mapM id

/-- The text of the units, with `replacement` for each lone surrogate. -/
def toTextLossy (us : List UInt16) : Text := (chars us).map (·.getD replacement)

end UsimPhonebook.Units
