import UsimPhonebook.Text.Gsm
import UsimPhonebook.Text.Units

/-! # Alpha fields

The text field of an address record. Its first byte tells one of four schemes:

* `0x80`: 16-bit words up to `0xFFFF`;
* `0x81`: a character count, a page of 128 characters, and one byte for each character;
* `0x82`: a character count, the first character of the page as a word, and one byte each;
* anything else: the GSM default alphabet (`Gsm.decode`).

A paged byte below `0x80` is a character of the default alphabet, any other one of the page.
A header that is cut short leaves the field to the default alphabet.
-/

namespace UsimPhonebook.Alpha

/-- The character of a paged byte, with the page starting at `base`. -/
def pagedChar (base : Nat) (b : UInt8) : Char :=
  if b < 0x80 then Gsm.defaultChar b else Units.charAt (base + (b.toNat - 0x80))

/-- The first `count` bytes of `body` as characters of the page. -/
def decodePaged (count base : Nat) (body : Bytes) : Text := (body.take count).map (pagedChar base)

/-- Words up to `0xFFFF`. -/
def decodeWords (src : Bytes) : Text :=
  Units.toTextLossy ((Bytes.words src).takeWhile (· != 0xFFFF))

/-- The text of an alpha field in any of the four schemes. -/
def decode (src : Bytes) : Text :=
  match src with
  | 0x80 :: rest => decodeWords rest
  | 0x81 :: count :: page :: body => decodePaged count.toNat (page.toNat * 128) body
  | 0x82 :: count :: hi :: lo :: body => decodePaged count.toNat (Bytes.word hi lo).toNat body
  | _ => Gsm.decode src

end UsimPhonebook.Alpha
