import CdkStacks.Command.Run

/-!
# The program

The command line on top of the library: real files, a user at a terminal, and the report of a run on
the standard streams.
-/

namespace CdkStacks.Program

open CdkStacks.Command CdkStacks.Files

/-- The path by which the system knows a path; the empty path is the working directory. -/
def systemPath (path : FilePath) : String :=
  if path.text.isEmpty then "./" else path.text

/-- Whether a path names something, which need not be open to us. -/
def holds (path : FilePath) : IO Bool :=
  try
    let _ ← IO.FS.realPath (systemPath path)
    return true
  catch _ => return false

/-- Whether a path names a directory. -/
def isDirectory (path : FilePath) : IO Bool :=
  try
    (← IO.FS.realPath (systemPath path)).isDir
  catch _ => return false

/-- The number of a system error. Some calls give it with its sign changed. -/
def errorNumber (code : UInt32) : Nat :=
  min code.toNat (UInt32.size - code.toNat)

/-- The fault behind a system error. -/
def faultOf (error : IO.Error) : Fault :=
  match error with
  | .noFileOrDirectory .. => .missing
  | .alreadyExists .. => .occupied
  | .inappropriateType _ code details | .invalidArgument _ code details
  | .permissionDenied _ code details | .resourceExhausted _ code details
  | .hardwareFault code details | .resourceBusy code details | .otherError code details =>
    match errorNumber code with
    | 20 => .notDirectory
    | 21 => .isDirectory
    | 36 => .nameTooLong
    | number => .other (details ++ " (os error " ++ toString number ++ ")")
  | _ => .other (toString error)

/-- The text of a file. -/
def readText (path : FilePath) : IO (Except Failure String) := do
  if ← isDirectory path then return .error (.read .isDirectory)
  try
    match String.fromUTF8? (← IO.FS.readBinFile (systemPath path)) with
    | some contents => return .ok contents
    | none => return .error (.read .notText)
  catch error => return .error (readFailure path (faultOf error))

/-- The directory of a file, as the system knows it. -/
def directoryOf (path : FilePath) : String :=
  let steps := path.components.dropLast.map fun
    | .root => ""
    | .here => "."
    | .parent => ".."
    | .name text => text
  match steps with
  | [] => "."
  | [""] => "/"
  | _ => "/".intercalate steps

/-- Make a file, with the directories it needs, where there is none. -/
def createText (path : FilePath) (contents : String) : IO (Except Failure Unit) := do
  try
    IO.FS.createDirAll (directoryOf path)
  catch error => return .error (createFailure path (.inl (faultOf error)))
  try
    let handle ← IO.FS.Handle.mk (systemPath path) .writeNew
    handle.putStr contents
    handle.flush
    return .ok ()
  catch error => return .error (createFailure path (.inr (faultOf error)))

/-- Ask questions at a terminal, from a stage on. -/
partial def converse (stage : Stage) : IO (Except Failure Confirmed) := do
  let question := stage.question
  let suggestion := match question.suggestion with
    | some text => " [" ++ text ++ "]"
    | none => ""
  let screen ← IO.getStderr
  screen.putStr (question.text ++ suggestion ++ ": ")
  screen.flush
  let line ← (← IO.getStdin).getLine
  let reply : Reply := if line.isEmpty then .cancel else .text line
  match stage.answer reply with
  | .ask next => converse next
  | .done confirmed => return .ok confirmed
  | .failed reason => return .error (.prompt reason)

/-- Ask a user at a terminal for parameters. -/
def askUser : IO (Except Failure Confirmed) := do
  if ← (← IO.getStdin).isTty then converse (.name [])
  else return .error (.prompt "Failed to read answer: IO error: not a terminal")

/-- The system as the surroundings of a command. -/
def environment : Environment IO where
  store :=
    { holds := holds
      isDirectory := isDirectory
      read := readText
      create := createText }
  interview := askUser

/-- Print lines. -/
def printLines (stream : IO.FS.Stream) (lines : List String) : IO Unit :=
  for line in lines do
    stream.putStrLn line

/-- Run the program and report on the standard streams. -/
def execute (arguments : List String) : IO UInt32 := do
  let report ← Command.run environment arguments
  printLines (← IO.getStdout) report.lines
  match report.outcome with
  | .success => pure ()
  | .failure failure => printLines (← IO.getStderr) ["Error: " ++ failure.message]
  | .usage => printLines (← IO.getStderr) usageLines
  return report.outcome.exitCode.toUInt32

end CdkStacks.Program

/-- The command line. -/
def main (arguments : List String) : IO UInt32 :=
  CdkStacks.Program.execute arguments
