import UsimPhonebook.CommandLine.Painting
import UsimPhonebook.Report

/-! # Reports on the screen

The lines in which each report is shown. When quiet, the title and the legend are left out.
-/

namespace UsimPhonebook

namespace Screen

def say (s : String) : Part := .words s.toList

def title (quiet : Bool) (t : Text) : List PaintedLine :=
  if quiet then [] else [[.styled .title t]]

def legend (quiet : Bool) : List PaintedLine :=
  if quiet then []
  else
    [[.styled .note ("type 1: record n belongs to entry n; "
      ++ "type 2: the entry\x27s EF_IAP byte names the record").toList]]

def linkage : Linkage → Text
  | .type1 => "type 1".toList
  | .type2 offset => "type 2 (IAP byte ".toList ++ decimal offset ++ [')']

/-- A value behind a blank, in brackets. -/
def value (style : Style) (opening closing : Char) (t : Text) : PaintedLine :=
  [say " ", .styled style (opening :: t ++ [closing])]

/-- An entry with its name in a column. -/
def entry (width : Nat) (r : EntryReport) : PaintedLine :=
  [.styled .position (Text.padRight 4 ('#' :: decimal r.index)), say " ",
   .styled .name (Text.padRight width r.alpha), say " ", .words r.number]
    ++ r.emails.flatMap (value .email '<' '>')
    ++ r.additionalNumbers.flatMap (value .number '[' ']')

def nameWidth (rs : List EntryReport) : Nat := rs.foldl (fun width r => max width r.alpha.length) 0

def entries (quiet : Bool) (rs : List EntryReport) : List PaintedLine :=
  title quiet (decimal rs.length ++ " entries".toList) ++ rs.map (entry (nameWidth rs))

def slotCount (n : Nat) : Part := .styled (if n = 0 then .full else .free) (decimal n)

/-- A number of slots, if there is a bound. -/
def slotTotal : Option Nat → Part
  | some n => slotCount n
  | none => .styled .note "unbounded".toList

/-- The number of slots of each block behind its number, blanks between. -/
def blockCounts : Nat → List Nat → PaintedLine
  | _, [] => []
  | block, [n] => [.words ('b' :: decimal block ++ ['=']), slotCount n]
  | block, n :: rest =>
    [.words ('b' :: decimal block ++ ['=']), slotCount n, say " "] ++ blockCounts (block + 1) rest

def kindCapacity (label : String) (c : KindCapacity) : PaintedLine :=
  [.words (Text.padRight 6 label.toList), say " ", .words (Text.padRight 22 (linkage c.linkage)),
   say " ", .column 9 (slotTotal c.total), say "  "] ++ blockCounts 0 c.blocks

def capacity (quiet : Bool) (r : CapacityReport) : List PaintedLine :=
  title quiet "Free slots".toList
    ++ [kindCapacity "email" r.email, kindCapacity "anr" r.anr] ++ legend quiet

def block (b : BlockReport) : PaintedLine :=
  [.styled .position ("block ".toList ++ decimal b.index), say " ",
   .words (Text.padLeft 3 (decimal b.entries)), say " entries  ",
   .words (Text.joinWith [' '] (b.files.map fun (name, file) => name ++ '=' :: file))]

def table (quiet : Bool) (r : TableReport) : List PaintedLine :=
  title quiet "Reference file".toList
    ++ [[say "email  ", .words (linkage r.email)], [say "anr    ", .words (linkage r.anr)]]
    ++ r.blocks.map block ++ legend quiet

end Screen

end UsimPhonebook
