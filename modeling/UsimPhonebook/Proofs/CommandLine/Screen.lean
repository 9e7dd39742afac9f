import Mathlib.Data.List.Basic
import UsimPhonebook.CommandLine.Program
import UsimPhonebook.Proofs.Report

/-! # What colour changes

Painting puts escape sequences around parts of a text. A printed character is a glyph here, which
tells whether it is one of the text or of a sequence (`Glyph`): so the visible text is what is left
without exactly the sequences that painting put in, also where the text itself holds escape
characters (`visible`). Where it holds none, the visible text is the printed one less every escape
sequence (`dropSequences_printLines`).

* Lines without columns show the same text in every palette as without one (`visible_unset`). The
  lists of entries and the reference table are such lines.
* Escape sequences are counted as if they took room. A painted total is as wide as its column by
  them alone, so in colour its column is lost (`visible_capacity`). The text stays the same only
  where the total itself takes the whole column (`visible_capacity_iff`).
-/

namespace UsimPhonebook

/-! ## Glyphs -/

/-- A printed character: one of the text, or one of a sequence that paints it. -/
inductive Glyph
  | text (c : Char)
  | paint (c : Char)
  deriving DecidableEq, Repr

namespace Glyph

def char : Glyph → Char
  | text c => c
  | paint c => c

/-- The character if it is one of the text. -/
def text? : Glyph → Option Char
  | text c => some c
  | paint _ => none

@[simp] theorem map_char_text (t : Text) : (t.map text).map char = t := by
  rw [List.map_map]
  exact List.map_id t

@[simp] theorem map_char_paint (t : Text) : (t.map paint).map char = t := by
  rw [List.map_map]
  exact List.map_id t

end Glyph

/-- The glyphs less the sequences that paint them. -/
def visible (glyphs : List Glyph) : Text := glyphs.filterMap Glyph.text?

@[simp] theorem visible_append (gs hs : List Glyph) :
    visible (gs ++ hs) = visible gs ++ visible hs := List.filterMap_append

@[simp] theorem visible_map_text (t : Text) : visible (t.map .text) = t := by
  unfold visible
  rw [List.filterMap_map]
  exact List.filterMap_some

@[simp] theorem visible_map_paint (t : Text) : visible (t.map .paint) = [] := by
  unfold visible
  rw [List.filterMap_map]
  exact List.filterMap_eq_nil_iff.2 fun _ _ => rfl

namespace Part

/-- The part as it is printed in a palette, glyph by glyph. -/
def glyphs (palette : Palette) : Part → List Glyph
  | words t => t.map .text
  | styled style t =>
    (Palette.start (palette style)).map .paint ++ t.map .text ++ Palette.stop.map .paint
  | column width part =>
    List.replicate (width - (part.glyphs palette).length) (.text ' ') ++ part.glyphs palette

/-- The part out of its columns. -/
def unset : Part → Part
  | column _ part => part.unset
  | part => part

variable {palette : Palette}

theorem map_char_glyphs (part : Part) :
    (part.glyphs palette).map Glyph.char = part.print (some palette) := by
  induction part with
  | words t => exact Glyph.map_char_text t
  | styled style t =>
    simp only [glyphs, print, Palette.paint, List.map_append, Glyph.map_char_text,
      Glyph.map_char_paint]
  | column width part ih =>
    simp only [glyphs, print, Text.padLeft, List.map_append, List.map_replicate, ih, Glyph.char]
    rw [← ih, List.length_map]

theorem visible_unset (part : Part) :
    visible (part.unset.glyphs palette) = part.unset.print none := by
  induction part with
  | words t => exact visible_map_text t
  | styled style t =>
    simp only [unset, glyphs, print, visible_append, visible_map_text, visible_map_paint,
      List.nil_append, List.append_nil]
  | column width part ih => exact ih

/-- Columns add blanks alone. -/
theorem length_print_unset_le (palette : Option Palette) (part : Part) :
    (part.unset.print palette).length ≤ (part.print palette).length := by
  induction part with
  | words t => exact Nat.le_refl _
  | styled style t => exact Nat.le_refl _
  | column width part ih =>
    simp only [unset, print, Text.padLeft, List.length_append]
    omega

/-- A column that is full of what is printed in it might as well not be there. -/
theorem glyphs_column {width : Nat} {part : Part}
    (full : width ≤ (part.print (some palette)).length) :
    (column width part).glyphs palette = part.glyphs palette := by
  rw [← map_char_glyphs, List.length_map] at full
  rw [glyphs, Nat.sub_eq_zero_of_le full]
  rfl

theorem print_column_eq_iff {width : Nat} {part : Part} :
    part.print none = (column width part).print none ↔ width ≤ (part.print none).length := by
  rw [print, Text.padLeft, List.self_eq_append_left, List.replicate_eq_nil_iff]
  exact Nat.sub_eq_zero_iff_le

end Part

/-! ## Lines -/

section

variable {α β : Type} {f g : α → List β}

theorem length_flatMap_le (le : ∀ a, (f a).length ≤ (g a).length) (items : List α) :
    (items.flatMap f).length ≤ (items.flatMap g).length := by
  induction items with
  | nil => exact Nat.le_refl _
  | cons a rest ih =>
    have := le a
    simp only [List.flatMap_cons, List.length_append]
    omega

/-- If each piece is at most as long as its counterpart, all together are the same only if each is
the same. -/
theorem flatMap_eq_flatMap_iff (le : ∀ a, (f a).length ≤ (g a).length) {items : List α} :
    items.flatMap f = items.flatMap g ↔ ∀ a ∈ items, f a = g a := by
  refine ⟨fun same => ?_, List.flatMap_congr⟩
  induction items with
  | nil => exact nofun
  | cons a rest ih =>
    rw [List.flatMap_cons, List.flatMap_cons] at same
    have lengths := congrArg List.length same
    rw [List.length_append, List.length_append] at lengths
    -- a shorter piece here could only be made up for by a longer one later
    have first := le a
    have others := length_flatMap_le le rest
    obtain ⟨here, there⟩ := List.append_inj same (by omega)
    exact List.forall_mem_cons.2 ⟨here, ih there⟩

end

namespace PaintedLine

variable {palette : Palette} {line : PaintedLine}

/-- The line as it is printed in a palette, glyph by glyph. -/
def glyphs (palette : Palette) (line : PaintedLine) : List Glyph :=
  line.flatMap (Part.glyphs palette) ++ [.text '\n']

/-- The line out of columns. -/
def unset (line : PaintedLine) : PaintedLine := line.map Part.unset

/-- No part of the line is set in a column. -/
def Loose (line : PaintedLine) : Prop := ∀ part ∈ line, part.unset = part

theorem Loose.unset_eq (loose : line.Loose) : line.unset = line :=
  (List.map_congr_left loose).trans (List.map_id line)

theorem map_char_glyphs (line : PaintedLine) :
    (line.glyphs palette).map Glyph.char = line.print (some palette) := by
  simp only [glyphs, print, List.map_append, List.map_flatMap, Part.map_char_glyphs]
  rfl

theorem visible_unset (line : PaintedLine) :
    visible (line.unset.glyphs palette) = line.unset.print none := by
  unfold glyphs print unset
  rw [visible_append, List.flatMap_map, List.flatMap_map]
  unfold visible
  rw [List.filterMap_flatMap]
  exact congrArg (· ++ ['\n']) (List.flatMap_congr fun part _ => part.visible_unset)

theorem length_print_unset_le (line : PaintedLine) :
    (line.unset.print none).length ≤ (line.print none).length := by
  unfold print unset
  rw [List.flatMap_map, List.length_append, List.length_append]
  exact Nat.add_le_add_right (length_flatMap_le (Part.length_print_unset_le none) line) _

theorem print_unset_eq_iff : line.unset.print none = line.print none ↔
    ∀ part ∈ line, part.unset.print none = part.print none := by
  unfold print unset
  rw [List.append_left_inj, List.flatMap_map]
  exact flatMap_eq_flatMap_iff (Part.length_print_unset_le none)

end PaintedLine

/-- Lines as they are printed in a palette, glyph by glyph. -/
def glyphLines (palette : Palette) (lines : List PaintedLine) : List Glyph :=
  lines.flatMap (PaintedLine.glyphs palette)

section

variable {palette : Palette} {lines : List PaintedLine}

theorem map_char_glyphLines (palette : Palette) (lines : List PaintedLine) :
    (glyphLines palette lines).map Glyph.char = printLines (some palette) lines := by
  simp only [glyphLines, printLines, List.map_flatMap, PaintedLine.map_char_glyphs]

theorem glyphLines_unset (full : ∀ line ∈ lines, ∀ part ∈ line,
    part.unset.glyphs palette = part.glyphs palette) :
    glyphLines palette (lines.map PaintedLine.unset) = glyphLines palette lines := by
  unfold glyphLines
  rw [List.flatMap_map]
  refine List.flatMap_congr fun line member => ?_
  unfold PaintedLine.glyphs PaintedLine.unset
  rw [List.flatMap_map]
  exact congrArg (· ++ [.text '\n']) (List.flatMap_congr (full line member))

/-- Out of columns, lines show the same text in every palette as without one. -/
theorem visible_unset (palette : Palette) (lines : List PaintedLine) :
    visible (glyphLines palette (lines.map PaintedLine.unset)) =
      printLines none (lines.map PaintedLine.unset) := by
  unfold glyphLines printLines
  rw [List.flatMap_map, List.flatMap_map]
  unfold visible
  rw [List.filterMap_flatMap]
  exact List.flatMap_congr fun line _ => line.visible_unset

theorem visible_of_loose (loose : ∀ line ∈ lines, line.Loose) :
    visible (glyphLines palette lines) = printLines none lines := by
  have same : lines.map PaintedLine.unset = lines :=
    (List.map_congr_left fun line member => (loose line member).unset_eq).trans (List.map_id lines)
  rw [← same]
  exact visible_unset palette lines

/-- The columns make no difference only if each of them is full of what is printed in it. -/
theorem printLines_unset_eq_iff :
    printLines none (lines.map PaintedLine.unset) = printLines none lines ↔
      ∀ line ∈ lines, ∀ part ∈ line, part.unset.print none = part.print none := by
  unfold printLines
  rw [List.flatMap_map, flatMap_eq_flatMap_iff PaintedLine.length_print_unset_le]
  exact forall₂_congr fun line _ => line.print_unset_eq_iff

end

/-! ## A reader that drops escape sequences -/

/-- A text less its escape sequences. A sequence ends with the next `m`; `inside` tells that one has
started. -/
def dropSequences (inside : Bool) : Text → Text
  | [] => []
  | c :: rest =>
    if inside then dropSequences (c != 'm') rest
    else if c = Palette.escape then dropSequences true rest
    else c :: dropSequences false rest

/-- A reader that drops escape sequences sees of these glyphs what is visible. -/
def Clear (glyphs : List Glyph) : Prop :=
  ∀ rest, dropSequences false (glyphs.map Glyph.char ++ rest) =
    visible glyphs ++ dropSequences false rest

/-- No sequence of the palette ends early, and none is without codes. -/
structure Palette.Sound (palette : Palette) : Prop where
  ends : ∀ style, 'm' ∉ (palette style).toList
  codes : ∀ style, (palette style).toList ≠ []

theorem Clear.append {gs hs : List Glyph} (first : Clear gs) (second : Clear hs) :
    Clear (gs ++ hs) := by
  intro rest
  rw [List.map_append, List.append_assoc, first, second, visible_append, List.append_assoc]

theorem clear_flatMap {α : Type} {f : α → List Glyph} {items : List α}
    (each : ∀ a ∈ items, Clear (f a)) : Clear (items.flatMap f) := by
  induction items with
  | nil => exact fun rest => rfl
  | cons a others ih =>
    obtain ⟨first, later⟩ := List.forall_mem_cons.1 each
    exact first.append (ih later)

theorem clear_text {t : Text} (unescaped : Palette.escape ∉ t) : Clear (t.map .text) := by
  intro rest
  rw [Glyph.map_char_text, visible_map_text]
  induction t with
  | nil => rfl
  | cons c t ih =>
    obtain ⟨ne, others⟩ := List.ne_and_not_mem_of_not_mem_cons unescaped
    rw [List.cons_append, dropSequences, if_neg (by decide), if_neg ne.symm, ih others]
    rfl

theorem dropSequences_codes {codes : Text} (goes : 'm' ∉ codes) (rest : Text) :
    dropSequences true (codes ++ 'm' :: rest) = dropSequences false rest := by
  induction codes with
  | nil => rfl
  | cons c codes ih =>
    obtain ⟨ne, others⟩ := List.ne_and_not_mem_of_not_mem_cons goes
    rw [List.cons_append, dropSequences, if_pos rfl, bne_iff_ne.2 ne.symm]
    exact ih others

theorem clear_start {codes : String} (goes : 'm' ∉ codes.toList) :
    Clear ((Palette.start codes).map .paint) := by
  intro rest
  rw [Glyph.map_char_paint, visible_map_paint, Palette.start, List.append_assoc]
  exact dropSequences_codes goes rest

theorem clear_stop : Clear (Palette.stop.map .paint) := by
  intro rest
  rw [Glyph.map_char_paint, visible_map_paint]
  rfl

theorem Part.clear_glyphs {palette : Palette} (sound : palette.Sound) {part : Part}
    (unescaped : Palette.escape ∉ part.print none) : Clear (part.glyphs palette) := by
  induction part with
  | words t => exact clear_text unescaped
  | styled style t =>
    exact ((clear_start (sound.ends style)).append (clear_text unescaped)).append clear_stop
  | column width part ih =>
    have inner : Palette.escape ∉ part.print none :=
      fun member => unescaped (List.mem_append_right _ member)
    have blanks (n : Nat) : Clear (List.replicate n (.text ' ')) := by
      rw [← List.map_replicate]
      exact clear_text fun member => absurd (List.eq_of_mem_replicate member) (by decide)
    exact (blanks _).append (ih inner)

/-- Where the text holds no escape character, dropping every escape sequence of what is printed
leaves what is visible. -/
theorem dropSequences_printLines {palette : Palette} (sound : palette.Sound)
    {lines : List PaintedLine} (unescaped : Palette.escape ∉ printLines none lines) :
    dropSequences false (printLines (some palette) lines) = visible (glyphLines palette lines) := by
  have clear : Clear (glyphLines palette lines) := by
    refine clear_flatMap fun line member => ?_
    refine (clear_flatMap fun part within => ?_).append
      (clear_text (t := ['\n']) (by decide))
    refine part.clear_glyphs sound fun escaped => unescaped ?_
    exact List.mem_flatMap.2 ⟨line, member,
      List.mem_append_left _ (List.mem_flatMap.2 ⟨part, within, escaped⟩)⟩
  rw [← map_char_glyphLines, ← List.append_nil (List.map _ _), clear []]
  exact List.append_nil _

/-! ## The palettes of the themes -/

theorem Palette.sound_ofTheme? {theme : Theme} {palette : Palette}
    (h : Palette.ofTheme? theme = some palette) : palette.Sound := by
  cases theme <;> cases h <;>
    exact ⟨fun style => by cases style <;> decide, fun style => by cases style <;> decide⟩

/-- Painting makes a text wider by at least eight characters. -/
theorem Palette.Sound.length_paint {palette : Palette} (sound : palette.Sound) (style : Style)
    (t : Text) : t.length + 8 ≤ (palette.paint style t).length := by
  have := List.length_pos_iff.2 (sound.codes style)
  simp only [Palette.paint, Palette.start, Palette.stop, List.length_append, List.length_cons,
    List.length_nil]
  omega

/-! ## The reports -/

theorem nine_le_length_decimal_iff (n : Nat) : 9 ≤ (decimal n).length ↔ 100000000 ≤ n := by
  have shorter : (decimal n).length ≤ 8 ↔ n < 100000000 :=
    Nat.length_toDigits_le_iff (by decide) (by decide)
  omega

namespace Screen

variable {palette : Palette}

theorem loose_title (quiet : Bool) (t : Text) : ∀ line ∈ title quiet t, line.Loose := by
  cases quiet <;> simp [title, PaintedLine.Loose, Part.unset]

theorem loose_legend (quiet : Bool) : ∀ line ∈ legend quiet, line.Loose := by
  cases quiet <;> simp [legend, PaintedLine.Loose, Part.unset]

theorem loose_entry (width : Nat) (r : EntryReport) : (entry width r).Loose := by
  simp only [PaintedLine.Loose, entry, value, say, List.forall_mem_append, List.forall_mem_flatMap,
    List.forall_mem_cons, Part.unset, List.not_mem_nil, false_imp_iff, implies_true, and_self]

theorem loose_entries (quiet : Bool) (rs : List EntryReport) :
    ∀ line ∈ entries quiet rs, line.Loose := by
  refine List.forall_mem_append.2 ⟨loose_title quiet _, List.forall_mem_map.2 fun r _ => ?_⟩
  exact loose_entry _ r

theorem loose_block (b : BlockReport) : (block b).Loose := by
  simp only [PaintedLine.Loose, block, say, List.forall_mem_cons, Part.unset, List.not_mem_nil,
    false_imp_iff, implies_true, and_self]

theorem loose_table (quiet : Bool) (r : TableReport) : ∀ line ∈ table quiet r, line.Loose := by
  have linkages : ∀ line ∈ ([[say "email  ", .words (linkage r.email)],
      [say "anr    ", .words (linkage r.anr)]] : List PaintedLine), line.Loose := by
    simp [PaintedLine.Loose, say, Part.unset]
  unfold table
  simp only [List.forall_mem_append, List.forall_mem_map]
  exact ⟨⟨⟨loose_title quiet _, linkages⟩, fun b _ => loose_block b⟩, loose_legend quiet⟩

theorem loose_blockCounts (block : Nat) (counts : List Nat) :
    (blockCounts block counts).Loose := by
  fun_induction blockCounts block counts with
  | case1 => exact nofun
  | case2 => simp [PaintedLine.Loose, slotCount, Part.unset]
  | case3 block n rest _ ih =>
    simp only [PaintedLine.Loose, List.forall_mem_append, List.forall_mem_cons]
    exact ⟨⟨rfl, rfl, rfl, nofun⟩, ih⟩

theorem unset_slotTotal (total : Option Nat) : (slotTotal total).unset = slotTotal total := by
  cases total <;> rfl

/-- In the palette of a theme the total takes its whole column, by its escape sequences alone. -/
theorem nine_le_length_slotTotal (sound : palette.Sound) (total : Option Nat) :
    9 ≤ ((slotTotal total).print (some palette)).length := by
  cases total with
  | none =>
    have wide : "unbounded".toList.length = 9 := by decide
    have := sound.length_paint .note "unbounded".toList
    show 9 ≤ (palette.paint .note "unbounded".toList).length
    omega
  | some n =>
    have digits : 0 < (decimal n).length := Nat.length_toDigits_pos
    have := sound.length_paint (if n = 0 then .full else .free) (decimal n)
    show 9 ≤ (palette.paint (if n = 0 then .full else .free) (decimal n)).length
    omega

/-- Where nothing is painted, a number of eight digits or less leaves room in the column. -/
theorem nine_le_length_slotTotal_iff (total : Option Nat) :
    9 ≤ ((slotTotal total).print none).length ↔ ∀ n, total = some n → 100000000 ≤ n := by
  cases total with
  | none => exact iff_of_true (by decide) nofun
  | some n => simpa [slotTotal, slotCount, Part.print] using nine_le_length_decimal_iff n

theorem forall_mem_kindCapacity {p : Part → Prop} (label : String) (c : KindCapacity)
    (loose : ∀ part, part.unset = part → p part) :
    (∀ part ∈ kindCapacity label c, p part) ↔ p (.column 9 (slotTotal c.total)) := by
  refine ⟨fun all => all _ (by simp [kindCapacity]), fun total => ?_⟩
  unfold kindCapacity
  simp only [List.forall_mem_append, List.forall_mem_cons]
  exact ⟨⟨loose _ rfl, loose _ rfl, loose _ rfl, loose _ rfl, total, loose _ rfl, nofun⟩,
    fun part member => loose part (loose_blockCounts 0 c.blocks part member)⟩

theorem forall_mem_capacity {p : Part → Prop} (quiet : Bool) (r : CapacityReport)
    (loose : ∀ part, part.unset = part → p part) :
    (∀ line ∈ capacity quiet r, ∀ part ∈ line, p part) ↔
      ∀ kind, p (.column 9 (slotTotal (r.of kind).total)) := by
  have rest {lines : List PaintedLine} (free : ∀ line ∈ lines, line.Loose) :
      ∀ line ∈ lines, ∀ part ∈ line, p part :=
    fun line member part within => loose part (free line member part within)
  unfold capacity
  simp only [List.forall_mem_append, List.forall_mem_cons, forall_mem_kindCapacity _ _ loose]
  constructor
  · rintro ⟨⟨-, email, anr, -⟩, -⟩ (_ | _)
    · exact email
    · exact anr
  · intro totals
    exact ⟨⟨rest (loose_title quiet _), totals .email, totals .anr, nofun⟩,
      rest (loose_legend quiet)⟩

/-- In colour the report of free slots shows what it would show without its columns. -/
theorem visible_capacity (sound : palette.Sound) (quiet : Bool) (r : CapacityReport) :
    visible (glyphLines palette (capacity quiet r)) =
      printLines none ((capacity quiet r).map PaintedLine.unset) := by
  -- the palette fills the columns, and out of columns it shows the same as none
  rw [← visible_unset palette, glyphLines_unset]
  refine (forall_mem_capacity quiet r fun part loose => by rw [loose]).2 fun kind => ?_
  rw [Part.glyphs_column (nine_le_length_slotTotal sound _), Part.unset, unset_slotTotal]

/-- This is what it shows without colour only if each total takes its whole column. -/
theorem visible_capacity_iff (sound : palette.Sound) (quiet : Bool) (r : CapacityReport) :
    visible (glyphLines palette (capacity quiet r)) = printLines none (capacity quiet r) ↔
      ∀ kind n, (r.of kind).total = some n → 100000000 ≤ n := by
  rw [visible_capacity sound, printLines_unset_eq_iff,
    forall_mem_capacity quiet r fun part loose => by rw [loose]]
  refine forall_congr' fun kind => ?_
  rw [Part.unset, unset_slotTotal, Part.print_column_eq_iff, nine_le_length_slotTotal_iff]

/-- What a theme shows in colour. The glyphs are those of what is printed, and where the text holds
no escape character, a reader that drops escape sequences sees the visible ones of them. Lists of
entries and the reference table show the text of the plain theme. The report of free slots shows
that text without the columns of its totals, so it is the same text exactly if each total is
missing or has nine digits. -/
theorem colour_loses_columns (place : Surroundings) (theme : Theme) (palette : Palette)
    (coloured : Program.paletteOf place false theme = some palette) :
    let plain := Program.paletteOf place false .plain
    (∀ lines, (glyphLines palette lines).map Glyph.char = printLines (some palette) lines) ∧
    (∀ lines, Palette.escape ∉ printLines plain lines →
      dropSequences false (printLines (some palette) lines) =
        visible (glyphLines palette lines)) ∧
    (∀ reports, visible (glyphLines palette (entries false reports)) =
      printLines plain (entries false reports)) ∧
    (∀ report, visible (glyphLines palette (table false report)) =
      printLines plain (table false report)) ∧
    ∀ report,
      visible (glyphLines palette (capacity false report)) =
        printLines plain ((capacity false report).map PaintedLine.unset) ∧
      (visible (glyphLines palette (capacity false report)) =
          printLines plain (capacity false report) ↔
        ∀ kind n, (report.of kind).total = some n → 100000000 ≤ n) := by
  intro plain
  have unpainted : plain = none := ite_self none
  have sound : palette.Sound := by
    unfold Program.paletteOf at coloured
    split at coloured
    · cases coloured
    · exact Palette.sound_ofTheme? coloured
  rw [unpainted]
  exact ⟨map_char_glyphLines palette, fun lines => dropSequences_printLines sound,
    fun reports => visible_of_loose (loose_entries false reports),
    fun report => visible_of_loose (loose_table false report),
    fun report => ⟨visible_capacity sound false report, visible_capacity_iff sound false report⟩⟩

/-- A name may hold what ends painting. -/
theorem colour_loses_columns_light :
    let named : EntryReport := ⟨0, 0, "4F3A".toList, 1, Palette.stop, ['1'], [], []⟩
    let report : CapacityReport :=
      ⟨⟨.type2 0, some 100000000, [100000000]⟩, ⟨.type1, none, [0]⟩⟩
    Program.paletteOf ⟨true, none⟩ false .light = some .light ∧
      visible (glyphLines .light (entries false [named])) =
        "1 entries\n#0   \x1b[0m 1\n".toList ∧
      visible (glyphLines .light (capacity false report)) =
        printLines none (capacity false report) := by
  intro named report
  obtain ⟨-, -, list, -, slots⟩ := colour_loses_columns ⟨true, none⟩ .light .light rfl
  refine ⟨rfl, (list [named]).trans (by decide +kernel), (slots report).2.2 ?_⟩
  rintro (_ | _) n total
  · cases total
    decide
  · cases total

/-- Of the two email records one is free, and in colour this number is not set in its column. What
is printed has fewer blanks then, so no way to drop escape sequences gives the text of the plain
theme. -/
theorem blanks_lost_looseCard :
    let s := (Session.start Session.looseCard {}).despite [.command .load]
    let lines := capacity false s.capacityReport
    Program.paletteOf ⟨true, none⟩ false .auto = some .dark ∧
      s.capacityReport.email.total = some 1 ∧
      visible (glyphLines .dark lines) ≠ printLines none lines ∧
      (printLines (some .dark) lines).count ' ' < (printLines none lines).count ' ' := by
  intro s lines
  have report : s.capacityReport = ⟨⟨.type2 0, some 1, [1, 0]⟩, ⟨.type1, none, [0, 0]⟩⟩ := by
    decide +kernel
  have total : s.capacityReport.email.total = some 1 := by rw [report]
  have auto : Palette.ofTheme? .auto = some .dark := rfl
  refine ⟨rfl, total, fun same => ?_, ?_⟩
  · have wide := (visible_capacity_iff (Palette.sound_ofTheme? auto) false _).1 same
    exact absurd (wide .email 1 total) (by decide)
  · show (printLines (some .dark) (capacity false s.capacityReport)).count ' ' <
      (printLines none (capacity false s.capacityReport)).count ' '
    rw [report]
    decide +kernel

end Screen

end UsimPhonebook
