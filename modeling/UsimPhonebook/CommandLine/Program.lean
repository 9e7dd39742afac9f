import UsimPhonebook.CardFile
import UsimPhonebook.CommandLine.Screen
import UsimPhonebook.CommandLine.Settings
import UsimPhonebook.Json.Printer
import UsimPhonebook.Report.Document

/-! # The program

A run of the program: from the words of the command line to what it prints and the exit code. It
is a task (`Program.run`), so that its effect on a file tree can be told.

* Lists and tables leave every file alone, and so does an edit that fails or is a dry run.
* An edit that succeeds writes the image of the card before anything is printed. So the image is
  written also where what is printed is lost, and the exit code is then not 0.
-/

namespace UsimPhonebook

/-- What a run comes to: its exit code and what it has to print. -/
structure RunResult where
  exitCode : Nat
  output : Text
  errors : Text := []
  deriving DecidableEq, Repr

inductive RunError
  | settingsUnreadable (path : Text) (cause : FileError)
  | settingsMalformed (path : Text)
  | badTheme (name : Text)
  | badFileId (digits : Text)
  | noImage
  | card (cause : CardFileError)
  | noTable
  deriving DecidableEq, Repr

def RunError.message : RunError → String
  | settingsUnreadable path cause =>
    "failed to read CLI config " ++ String.ofList path ++ ": " ++ cause.message
  | settingsMalformed path => "failed to parse CLI config " ++ String.ofList path
  | badTheme name => "theme \x27" ++ String.ofList name ++ "\x27 is invalid"
  | badFileId digits => "file id \x27" ++ String.ofList digits ++ "\x27 is not a 4-digit hex number"
  | noImage => "no card image given; pass --image or set card.image in the config file"
  | card cause => cause.message
  | noTable => "reference file not loaded"

structure Surroundings where
  /-- the output goes to a terminal -/
  terminal : Bool
  /-- the configuration file that is read if none is named -/
  settingsPath : Option Text
  deriving DecidableEq, Repr

namespace Program

abbrev Step (α : Type) := ExceptT RunError FileTask α

def versionLine : Text := "simbook 0.1.0\n".toList

def usage : Text :=
  ("Usage: simbook [--config FILE] [--image FILE] [--pbr-fid HEX] [--format text|json]\n"
    ++ "               [--theme auto|light|dark|plain] [-q] COMMAND\n\n"
    ++ "Commands:\n"
    ++ "  list [--non-empty]\n"
    ++ "  free\n"
    ++ "  pbr\n"
    ++ "  set-email INDEX [--old VALUE] [--new VALUE] [--dry-run]\n"
    ++ "  set-anr INDEX [--old VALUE] [--new VALUE] [--dry-run]\n").toList

/-- The settings in a file. Where nothing is found, for whatever cause, there are none. -/
def readSettings (path : Option Text) : Step Settings := do
  match path with
  | none => return {}
  | some path =>
    if ← FileTask.holds path then
      match ← FileTask.readText path with
      | .ok text =>
        match Settings.read? text with
        | some settings => return settings
        | none => throw (.settingsMalformed path)
      | .error e => throw (.settingsUnreadable path e)
    else return {}

/-- The theme of the arguments, or else that of the settings in any case of letters. -/
def themeOf (a : Arguments) (settings : Settings) : Except RunError Theme :=
  match a.theme, settings.theme with
  | some theme, _ => .ok theme
  | none, none => .ok .auto
  | none, some name =>
    match Theme.ofName? (name.map Char.toLower) with
    | some theme => .ok theme
    | none => .error (.badTheme name)

def imageOf (a : Arguments) (settings : Settings) : Except RunError Text :=
  match a.image.or settings.image with
  | some path => .ok path
  | none => .error .noImage

def referenceFileOf (a : Arguments) (settings : Settings) : Except RunError FileId :=
  match a.referenceFile.or settings.referenceFile with
  | none => .ok ({} : Options).referenceFile
  | some digits =>
    match FileId.read? digits with
    | some file => .ok file
    | none => .error (.badFileId digits)

def display (format : OutputFormat) (palette : Option Palette) (document : Json)
    (lines : List PaintedLine) : Text :=
  match format with
  | .json => document.pretty ++ ['\n']
  | .text => printLines palette lines

def shown (a : Arguments) (palette : Option Palette) (document : Json)
    (lines : List PaintedLine) : RunResult where
  exitCode := 0
  output := display a.format palette document lines

def dryRunNote : Text := "note: dry run: card image left unchanged\n".toList

def savedLine (path : Text) : Text := "wrote ".toList ++ path ++ ['\n']

/-- Edits a field and writes the image of the card, unless this is a dry run. -/
def edit (a : Arguments) (palette : Option Palette) (file : CardFile) (e : FieldEdit) :
    Step RunResult := do
  let (outcome, file) := file.update e.position e.old e.new e.kind
  let report ← (outcome.mapError .card : Except RunError _)
  let result := shown a palette report.toJson (Screen.entries a.quiet [report])
  if e.dryRun then
    return { result with errors := if a.quiet then [] else dryRunNote }
  else
    match ← file.save with
    | .error e => throw (.card e)
    | .ok () =>
      match a.format with
      | .json => return result
      | .text => return { result with output := savedLine file.path ++ result.output }

def perform (a : Arguments) (palette : Option Palette) (file : CardFile) : Step RunResult :=
  match a.job with
  | .list nonEmpty =>
    let reports := file.session.listReport nonEmpty
    let document := .array (reports.map EntryReport.toJson)
    pure (shown a palette document (Screen.entries a.quiet reports))
  | .free =>
    let report := file.session.capacityReport
    pure (shown a palette report.toJson (Screen.capacity a.quiet report))
  | .table =>
    match file.session.tableReport? with
    | none => throw .noTable
    | some report => pure (shown a palette report.toJson (Screen.table a.quiet report))
  | .edit e => edit a palette file e

/-- The palette for the output: none when quiet or away from a terminal. -/
def paletteOf (surroundings : Surroundings) (quiet : Bool) (theme : Theme) : Option Palette :=
  if quiet || !surroundings.terminal then none else Palette.ofTheme? theme

def carryOut (surroundings : Surroundings) (a : Arguments) : Step RunResult := do
  let settings ← readSettings (a.settingsPath.or surroundings.settingsPath)
  let theme ← themeOf a settings
  let image ← imageOf a settings
  let referenceFile ← referenceFileOf a settings
  match ← CardFile.openAt image referenceFile with
  | .error e => throw (.card e)
  | .ok file => perform a (paletteOf surroundings a.quiet theme) file

def failure (e : RunError) : RunResult where
  exitCode := 1
  output := []
  errors := ("error: " ++ e.message ++ "\n").toList

def conclude : Except RunError RunResult → RunResult
  | .ok result => result
  | .error e => failure e

/-- Prints a result, the messages first, as long as what is printed is taken; gives whether all of
it was. -/
def tell (result : RunResult) : FileTask Bool := do
  if ← FileTask.say .errors result.errors then FileTask.say .output result.output
  else return false

/-- The result of a run that broke off because what it printed was lost. -/
def lost : RunResult where
  exitCode := 101
  output := []

/-- Prints the result of a run; the run breaks off at a text that is lost. -/
def deliver (result : RunResult) : FileTask RunResult := do
  if ← tell result then return result else return lost

/-- Prints how the program is used; this may be lost. -/
def explain (result : RunResult) : FileTask RunResult := do
  let _ ← tell result
  return result

def run (surroundings : Surroundings) (words : List Text) : FileTask RunResult :=
  match Arguments.read words with
  | .version => explain { exitCode := 0, output := versionLine }
  | .help => explain { exitCode := 0, output := usage }
  | .misuse => explain { exitCode := 2, output := [], errors := usage }
  | .run a => do deliver (conclude (← (carryOut surroundings a).run))

end Program

end UsimPhonebook
