import UsimPhonebook.CommandLine.Program

/-! # The command

Runs the program on the files and the outlets of the system: the task that `Program.run` describes
is carried out step by step, and its exit code is that of the process.
-/

namespace UsimPhonebook

/-- The number of a cause of failure, which some calls report with its sign turned. -/
def causeNumber (code : UInt32) : Nat :=
  if code.toNat < 0x80000000 then code.toNat else 0x100000000 - code.toNat

/-- The cause with a number and, for one that has no name of its own, the words for it. -/
def FileError.ofCause (code : UInt32) (words : String) : FileError :=
  match causeNumber code with
  | 2 => .notFound
  | 20 => .notFolder
  | 21 => .isFolder
  | 36 => .nameTooLong
  | number => .other s!"{words.capitalize} (os error {number})"

/-- The cause of a failure that the system reports. -/
def FileError.ofSystem : IO.Error → FileError
  | .noFileOrDirectory _ code words => .ofCause code words
  | .noSuchThing _ code words => .ofCause code words
  | .inappropriateType _ code words => .ofCause code words
  | .invalidArgument _ code words => .ofCause code words
  | .permissionDenied _ code words => .ofCause code words
  | .resourceExhausted _ code words => .ofCause code words
  | e => .other (toString e)

namespace FileTask

/-- Whether the system finds something at a path. -/
def probeSystem (path : Text) : IO Bool := do
  if path.contains '\x00' then return false
  try
    let _ ← IO.FS.realPath (String.ofList path)
    return true
  catch _ => return false

/-- The text of a file of the system. -/
def readSystem (path : Text) : IO (Except FileError Text) := do
  if path.contains '\x00' then return .error .badName
  try
    let bytes ← IO.FS.readBinFile (String.ofList path)
    match String.fromUTF8? bytes with
    | some t => return .ok t.toList
    | none => return .error (.other "stream did not contain valid UTF-8")
  catch e => return .error (.ofSystem e)

/-- Gives a file of the system a text. -/
def writeSystem (path text : Text) : IO (Except FileError Unit) := do
  if path.contains '\x00' then return .error .badName
  try
    IO.FS.writeFile (String.ofList path) (String.ofList text)
    return .ok ()
  catch e => return .error (.ofSystem e)

/-- Prints a text; gives whether it was taken. -/
def printSystem (outlet : Outlet) (text : Text) : IO Bool := do
  let stream ← match outlet with
    | .output => IO.getStdout
    | .errors => IO.getStderr
  try
    stream.putStr (String.ofList text)
    stream.flush
    return true
  catch _ => return false

/-- Carries out a task on the files of the system. -/
def runOnSystem {α : Type} : FileTask α → IO α
  | done result => return result
  | probe path next => do (next (← probeSystem path)).runOnSystem
  | read path next => do (next (← readSystem path)).runOnSystem
  | write path text next => do (next (← writeSystem path text)).runOnSystem
  | print outlet text next => do (next (← printSystem outlet text)).runOnSystem

end FileTask

/-- The folder of configuration files: the one that the environment names with an absolute path, or
else the usual one in the home folder. -/
def settingsFolder (named home : Option String) : Option Text :=
  match named.map String.toList, home.map String.toList with
  | some ('/' :: rest), _ => some ('/' :: rest)
  | _, some [] => none
  | _, some folder => some (folder ++ "/.config".toList)
  | _, none => none

/-- Where this process runs. -/
def surroundings : IO Surroundings := do
  let folder := settingsFolder (← IO.getEnv "XDG_CONFIG_HOME") (← IO.getEnv "HOME")
  return { terminal := ← (← IO.getStdout).isTty,
           settingsPath := folder.map (· ++ "/simbook/config.toml".toList) }

end UsimPhonebook

open UsimPhonebook in
def main (words : List String) : IO UInt32 := do
  let result ← (Program.run (← surroundings) (words.map String.toList)).runOnSystem
  return UInt32.ofNat result.exitCode
