import UsimPhonebook.Bytes
import UsimPhonebook.Text.Basic

/-! # The GSM default alphabet

Text of one byte for each character of the 7-bit default alphabet, and of two bytes, the first of
them `0x1B`, for the ten characters of its extension table. Fill ends the text.

* `Gsm.encode` writes a blank for a character that the alphabet lacks; `Gsm.isEncodable` says that
  there is none.
* `Gsm.decode` reads any bytes: what names no character is a blank.
-/

namespace UsimPhonebook.Gsm

/-- The byte that announces a character of the extension table. -/
def escape : UInt8 := 0x1B

/-- The characters of the codes `0x00` to `0x1A`. -/
def lowTable : List Char :=
  ['@', '£', '$', '¥', 'è', 'é', 'ù', 'ì', 'ò', 'Ç', '\n', 'Ø', 'ø', '\r', 'Å', 'å',
   'Δ', '_', 'Φ', 'Γ', 'Λ', 'Ω', 'Π', 'Ψ', 'Σ', 'Θ', 'Ξ']

/-- The characters of the codes `0x1C` to `0x7F`. -/
def highTable : List Char :=
  ['Æ', 'æ', 'ß', 'É',
   ' ', '!', '\x22', '#', '¤', '%', '&', '\x27', '(', ')', '*', '+', ',', '-', '.', '/',
   '0', '1', '2', '3', '4', '5', '6', '7', '8', '9', ':', ';', '<', '=', '>', '?',
   '¡', 'A', 'B', 'C', 'D', 'E', 'F', 'G', 'H', 'I', 'J', 'K', 'L', 'M', 'N', 'O',
   'P', 'Q', 'R', 'S', 'T', 'U', 'V', 'W', 'X', 'Y', 'Z', 'Ä', 'Ö', 'Ñ', 'Ü', '§',
   '¿', 'a', 'b', 'c', 'd', 'e', 'f', 'g', 'h', 'i', 'j', 'k', 'l', 'm', 'n', 'o',
   'p', 'q', 'r', 's', 't', 'u', 'v', 'w', 'x', 'y', 'z', 'ä', 'ö', 'ñ', 'ü', 'à']

/-- The default alphabet by code; the code of `escape` names no character. -/
def defaultTable : List (Option Char) := lowTable.map some ++ none :: highTable.map some

/-- The extension table: the byte after `escape` and the character it names. -/
def extensionTable : List (UInt8 × Char) :=
  [(0x0A, '\x0c'), (0x14, '^'), (0x28, '\x7b'), (0x29, '\x7d'), (0x2F, '\x5c'), (0x3C, '['),
   (0x3D, '~'), (0x3E, ']'), (0x40, '|'), (0x65, '€')]

/-- The character of a code of the default alphabet, a blank if it has none. -/
def defaultChar (code : UInt8) : Char := (defaultTable[code.toNat]?.join).getD ' '

/-- The character that a byte names after `escape`, if the extension table has it. -/
def extensionChar? (code : UInt8) : Option Char := extensionTable.lookup code

/-- The character of a byte after `escape`; the default alphabet serves what the extension lacks. -/
def escapedChar (code : UInt8) : Char := (extensionChar? code).getD (defaultChar code)

/-- One byte for a character of the default alphabet, two for one of the extension table. -/
def encodeChar? (c : Char) : Option Bytes :=
  match defaultTable.idxOf? (some c) with
  | some code => some [UInt8.ofNat code]
  | none => (extensionTable.find? (·.2 == c)).map fun entry => [escape, entry.1]

/-- The bytes of a text, a blank for each character outside the alphabet. -/
def encode (t : Text) : Bytes := t.flatMap fun c => (encodeChar? c).getD [0x20]

def isEncodable (t : Text) : Bool := t.all fun c => (encodeChar? c).isSome

/-- The text up to the first fill byte; an `escape` that nothing follows ends it too. -/
def decode : Bytes → Text
  | [] => []
  | [b] => if b = fillByte ∨ b = escape then [] else [defaultChar b]
  | b :: next :: rest =>
    if b = fillByte then []
    else if b = escape then if next = fillByte then [] else escapedChar next :: decode rest
    else defaultChar b :: decode (next :: rest)

end UsimPhonebook.Gsm
