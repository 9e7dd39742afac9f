/-! # Text

A text is a list of characters. Columns are padded by character count, not by screen width. The
blanks that a name field loses at its end (`Text.trimEnd`) are the characters of the Unicode
property `White_Space`.
-/

namespace UsimPhonebook

abbrev Text := List Char

namespace Text

/-- At least `width` characters, filled with blanks on the right. -/
def padRight (width : Nat) (t : Text) : Text := t ++ List.replicate (width - t.length) ' '

/-- At least `width` characters, filled with blanks on the left. -/
def padLeft (width : Nat) (t : Text) : Text := List.replicate (width - t.length) ' ' ++ t

/-- The texts in order with `sep` between neighbours. -/
def joinWith (sep : Text) : List Text → Text
  | [] => []
  | [t] => t
  | t :: rest => t ++ sep ++ joinWith sep rest

/-- The ranges of the property `White_Space`, first and last code point. -/
def blankRanges : List (Nat × Nat) :=
  [(0x09, 0x0D), (0x20, 0x20), (0x85, 0x85), (0xA0, 0xA0), (0x1680, 0x1680), (0x2000, 0x200A),
   (0x2028, 0x2029), (0x202F, 0x202F), (0x205F, 0x205F), (0x3000, 0x3000)]

def isBlankChar (c : Char) : Bool :=
  blankRanges.any fun (first, last) => first ≤ c.toNat && c.toNat ≤ last

/-- Less the blanks at its end. -/
def trimEnd (t : Text) : Text := (t.reverse.dropWhile isBlankChar).reverse

end Text

end UsimPhonebook
