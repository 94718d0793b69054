import TelemetryTypes.Command.Run

/-!
# The program

Reads the arguments, does the action on the files of the machine, and writes the log to the standard
error and the rest to the standard output.
-/

namespace TelemetryTypes

def FileError.ofMachine (e : IO.Error) : FileError :=
  match e with
  | .noFileOrDirectory _ _ _ => .notFound
  | .permissionDenied _ _ _ => .denied
  | .resourceBusy _ _ => .busy
  | .invalidArgument _ 36 _ => .tooLong
  | .resourceExhausted _ 28 _ => .noSpace
  | .inappropriateType _ 20 _ => .notDirectory
  | .inappropriateType _ 21 _ => .isDirectory
  | e => .other (toString e)

def readMachineFile (path : String) : IO (Except FileError String) := do
  let content ← EIO.toBaseIO (IO.FS.readBinFile path)
  match content with
  | .error e => return .error (.ofMachine e)
  | .ok content =>
    match String.fromUTF8? content with
    | some text => return .ok text
    | none => return .error .notText

/-- A temporary file of the machine, open to be written. -/
structure MachineTemporary where
  path : String
  handle : IO.FS.Handle

def orFileError {α : Type} (x : IO α) : IO (Except FileError α) := do
  match ← EIO.toBaseIO x with
  | .error e => return .error (.ofMachine e)
  | .ok a => return .ok a

def createMachineFile (directory : String) : IO MachineTemporary := do
  let path := directory ++ s!"/.tmp{← IO.monoNanosNow}"
  return ⟨path, ← IO.FS.Handle.mk path .writeNew⟩

def writeMachineFile (t : MachineTemporary) (text : String) : IO Unit := do
  t.handle.write text.toUTF8
  t.handle.flush

instance : FileStore IO where
  Temporary := MachineTemporary
  read := readMachineFile
  create directory := orFileError (createMachineFile directory)
  write t text := orFileError (writeMachineFile t text)
  move t path := orFileError (IO.FS.rename t.path path)
  remove t := discard (EIO.toBaseIO (IO.FS.removeFile t.path))

namespace Command

def writeEntry (json : Bool) (e : LogEntry) : IO Unit :=
  IO.eprintln (if json then e.toJson.compact else e.text)

/-- Does what the arguments ask for. Returns the exit code. -/
def main (args : List String) : IO UInt32 := do
  match parse args with
  | .error .usage =>
    IO.eprint usageText
    return 2
  | .error .help =>
    IO.print usageText
    return 0
  | .error .version =>
    IO.println programName
    return 0
  | .ok invocation =>
    let outcome ← run invocation.action
    (invocation.shown outcome.logged).forM (writeEntry invocation.logJson)
    IO.print outcome.printed
    return outcome.exitCode.toUInt32

end Command

end TelemetryTypes

def main (args : List String) : IO UInt32 := TelemetryTypes.Command.main args
