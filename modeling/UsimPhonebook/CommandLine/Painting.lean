import UsimPhonebook.CommandLine.Arguments

/-! # Painted text

Text in parts, each of them in a style or in none. A palette paints the styles by escape sequences
of the terminal; without a palette only the words are printed.

`Part.column` sets a part flush right. It counts the characters that are printed, those of escape
sequences among them.
-/

namespace UsimPhonebook

/-- What a part of a text is for. -/
inductive Style
  | title
  | position
  | name
  | email
  | number
  | free
  | full
  | note
  deriving DecidableEq, Repr

inductive Part
  | words (t : Text)
  | styled (style : Style) (t : Text)
  /-- flush right in a column of so many characters -/
  | column (width : Nat) (part : Part)
  deriving DecidableEq, Repr

/-- The escape codes of each style. -/
abbrev Palette := Style → String

namespace Palette

def dark : Palette
  | .title => "1;96"
  | .position => "90"
  | .name => "1;37"
  | .email => "32"
  | .number => "33"
  | .free => "1;32"
  | .full => "1;31"
  | .note => "3;90"

def light : Palette
  | .title => "1;34"
  | .name => "1;30"
  | style => dark style

/-- The palette of a theme; the plain one has none. -/
def ofTheme? : Theme → Option Palette
  | .plain => none
  | .light => some light
  | .auto | .dark => some dark

def escape : Char := '\x1b'

/-- The sequence that starts painting with these codes. -/
def start (codes : String) : Text := escape :: '[' :: codes.toList ++ ['m']

/-- The sequence that ends painting. -/
def stop : Text := [escape, '[', '0', 'm']

def paint (palette : Palette) (style : Style) (t : Text) : Text :=
  start (palette style) ++ t ++ stop

end Palette

namespace Part

def print (palette : Option Palette) : Part → Text
  | words t => t
  | styled style t =>
    match palette with
    | some palette => palette.paint style t
    | none => t
  | column width part => Text.padLeft width (part.print palette)

end Part

abbrev PaintedLine := List Part

/-- A line as it is printed, with its end. -/
def PaintedLine.print (palette : Option Palette) (line : PaintedLine) : Text :=
  line.flatMap (Part.print palette) ++ ['\n']

def printLines (palette : Option Palette) (lines : List PaintedLine) : Text :=
  lines.flatMap (PaintedLine.print palette)

end UsimPhonebook
