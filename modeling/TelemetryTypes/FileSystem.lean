import TelemetryTypes.Text.Basic
import TelemetryTypes.Text.Escaped

/-!
# Files

A run reads files as texts and replaces one. `FileStore` is what it needs of the files;
`FileSystem` is a store that is a value: the files and directories of a machine, the directory where
a run works, and how much there is room for. A file is replaced by moving a temporary one of the
same directory over it, so it is replaced as a whole or not at all. Paths and the names in them may
only be so long.
-/

namespace TelemetryTypes

/-- Why a file cannot be read or made. -/
inductive FileError where
  | notFound | denied | busy | notDirectory | isDirectory | noSpace | tooLong | notText | namesTaken
  | other (reason : String)
  deriving DecidableEq

def FileError.message : FileError → String
  | notFound => "No such file or directory (os error 2)"
  | denied => "Permission denied (os error 13)"
  | busy => "Device or resource busy (os error 16)"
  | notDirectory => "Not a directory (os error 20)"
  | isDirectory => "Is a directory (os error 21)"
  | noSpace => "No space left on device (os error 28)"
  | tooLong => "File name too long (os error 36)"
  | notText => "stream did not contain valid UTF-8"
  | namesTaken => "too many temporary files exist"
  | other reason => reason

/-- Files that can be read as texts. Temporary ones can be made in a directory, written, moved to a
path and removed. -/
class FileStore (m : Type → Type) where
  Temporary : Type
  read : String → m (Except FileError String)
  create : String → m (Except FileError Temporary)
  write : Temporary → String → m (Except FileError Unit)
  move : Temporary → String → m (Except FileError Unit)
  remove : Temporary → m Unit

/-- Why a file was not replaced: the temporary file could not be made, written or moved. -/
inductive ReplaceError where
  | noTemporary (e : FileError)
  | notWritten (e : FileError)
  | notMoved (e : FileError)
  deriving DecidableEq

namespace FileStore

variable {m : Type → Type} [Monad m] [FileStore m]

/-- Replaces a file. A temporary file that is not moved into its place is removed. -/
def replace (path text : String) : m (Except ReplaceError Unit) := do
  match ← create (Text.directoryOf path) with
  | .error e => return .error (.noTemporary e)
  | .ok temporary =>
    match ← write temporary text with
    | .error e =>
      remove temporary
      return .error (.notWritten e)
    | .ok () =>
      match ← move temporary path with
      | .error e =>
        remove temporary
        return .error (.notMoved e)
      | .ok () => return .ok ()

end FileStore

/-- A place, by the names that lead to it from the outermost directory. -/
abbrev Place := List String

inductive Entry where
  | file (content : ByteArray) (readable : Bool)
  | directory (writable : Bool)

def Entry.size : Entry → Nat
  | file content _ => content.size
  | directory _ => 0

/-- Files and directories, where a run works, and how many bytes all files together may take, if
they may not take any number. Of two entries of one place the first counts. -/
structure FileSystem where
  entries : List (Place × Entry)
  workingDirectory : Place
  capacity : Option Nat := none

namespace FileSystem

/-- What stands at a place. The working directory and those around it always are there. -/
def entry? (fs : FileSystem) (place : Place) : Option Entry :=
  match fs.entries.lookup place with
  | some entry => some entry
  | none => if place.isPrefixOf fs.workingDirectory then some (.directory true) else none

def remove (fs : FileSystem) (place : Place) : FileSystem :=
  { fs with entries := fs.entries.filter (·.1 != place) }

def put (fs : FileSystem) (place : Place) (entry : Entry) : FileSystem :=
  { fs with entries := (place, entry) :: (fs.remove place).entries }

/-- How many bytes all files together take. -/
def used (fs : FileSystem) : Nat := fs.entries.foldr (fun e used => e.2.size + used) 0

/-- How many bytes a file may take, the others being as they are. -/
def roomFor? (fs : FileSystem) (place : Place) : Option Nat :=
  fs.capacity.map (· - (fs.remove place).used)

/-- The files below the working directory, by their paths from there. -/
def workingFiles (fs : FileSystem) : List (String × ByteArray) :=
  fs.entries.filterMap fun (place, entry) =>
    match entry with
    | .file content _ =>
      if fs.workingDirectory.isPrefixOf place then
        some ("/".intercalate (place.drop fs.workingDirectory.length), content)
      else none
    | .directory _ => none

/-! ### Paths -/

def steps (path : String) : List String :=
  ((Text.splitAtChar '/' path.toList).filter (!·.isEmpty)).map String.ofList

/-- Whether a path ends with a slash, so that it can only lead to a directory. -/
def asksForDirectory (path : String) : Bool := path.toList.getLast? == some '/'

/-- How many bytes a path may take. -/
def maxPathLength : Nat := 4095

/-- How many bytes a name may take. -/
def maxNameLength : Nat := 255

/-- Takes one step from a place, which has to be a directory. Nothing lies above the outermost one.
-/
def step (fs : FileSystem) (place : Place) (name : String) : Except FileError Place :=
  match fs.entry? place with
  | none => .error .notFound
  | some (.file _ _) => .error .notDirectory
  | some (.directory _) =>
    if name = "." then .ok place
    else if name = ".." then .ok place.dropLast
    else if maxNameLength < name.utf8ByteSize then .error .tooLong
    else .ok (place ++ [name])

/-- Where steps of a path lead: from the outermost directory if it starts with a slash, and from the
working directory otherwise. -/
def walk (fs : FileSystem) (path : String) (steps : List String) : Except FileError Place :=
  if maxPathLength < path.utf8ByteSize then .error .tooLong
  else
    steps.foldlM fs.step (if path.toList.head? = some '/' then [] else fs.workingDirectory)

def resolve (fs : FileSystem) (path : String) : Except FileError Entry := do
  let last := if asksForDirectory path then ["."] else []
  match fs.entry? (← fs.walk path (steps path ++ last)) with
  | some entry => .ok entry
  | none => .error .notFound

/-! ### Reading -/

def read (fs : FileSystem) (path : String) : Except FileError String := do
  match ← fs.resolve path with
  | .directory _ => .error .isDirectory
  | .file content readable =>
    if !readable then .error .denied
    else match String.fromUTF8? content with
      | some text => .ok text
      | none => .error .notText

/-! ### Temporary files -/

/-- The name of a temporary file; a run makes up its end. -/
def temporaryName : String := ".tmpXXXXXX"

/-- A path from the outermost directory on. -/
def absolutePath (workingDirectory path : String) : String :=
  (if path.toList.head? = some '/' then "" else workingDirectory ++ "/") ++ path

/-- The path of a temporary file in a directory, from the outermost directory on. -/
def temporaryPath (workingDirectory directory : String) : String :=
  let separator := if directory.toList.getLast? = some '/' then "" else "/"
  absolutePath workingDirectory directory ++ separator ++ temporaryName

/-- Checks that a temporary file can be made in the directory that a path leads to. -/
def checkDirectory (fs : FileSystem) (path : String) : Except FileError Unit := do
  let workingDirectory := "/" ++ "/".intercalate fs.workingDirectory
  if maxPathLength < (temporaryPath workingDirectory path).utf8ByteSize then .error .tooLong
  match ← fs.resolve path with
  | .file _ _ => .error .notDirectory
  | .directory writable => if writable then .ok () else .error .denied

/-- The names that a run makes up, each for one number. -/
def madeUpName (n : Nat) : String :=
  ".tmp" ++ String.ofList ((Nat.toDigits 10 n).leftpad 6 '0')

/-- How many names are tried for a temporary file. -/
def attempts : Nat := 65536

/-- A place in a directory where nothing stands, found in so many attempts. -/
def freePlace? (fs : FileSystem) (directory : Place) : Nat → Option Place
  | 0 => none
  | n + 1 =>
    match fs.entry? (directory ++ [madeUpName n]) with
    | none => some (directory ++ [madeUpName n])
    | some _ => freePlace? fs directory n

/-- Where a temporary file goes in the directory that a path leads to. -/
def temporaryPlace (fs : FileSystem) (path : String) : Except FileError Place := do
  fs.checkDirectory path
  match fs.freePlace? (← fs.walk path (steps path)) attempts with
  | none => .error .namesTaken
  | some place => .ok place

/-- Makes an empty file in the directory that a path leads to. -/
def create (fs : FileSystem) (path : String) : Except FileError Place × FileSystem :=
  match fs.temporaryPlace path with
  | .error e => (.error e, fs)
  | .ok place => (.ok place, fs.put place (.file ⟨#[]⟩ true))

/-- Writes a file, as far as there is room. -/
def write (fs : FileSystem) (place : Place) (text : String) : Except FileError Unit × FileSystem :=
  let bytes := text.toUTF8
  match (fs.roomFor? place).filter (· < bytes.size) with
  | some room => (.error .noSpace, fs.put place (.file (bytes.extract 0 room) true))
  | none => (.ok (), fs.put place (.file bytes true))

/-- Where a file that is moved to a path ends up. -/
def destination (fs : FileSystem) (path : String) : Except FileError Place := do
  let directory ← fs.walk path (steps path).dropLast
  match (steps path).getLast? with
  | none => .error .busy
  | some name =>
    let target ← fs.step directory name
    if name = "." || name = ".." then .error .busy
    else if asksForDirectory path then .error .notDirectory
    else match fs.entry? target with
      | some (.directory _) => .error .isDirectory
      | _ => .ok target

/-- Moves what stands at a place to a path. -/
def move (fs : FileSystem) (place : Place) (path : String) : Except FileError Unit × FileSystem :=
  match fs.destination path, fs.entry? place with
  | .error e, _ => (.error e, fs)
  | .ok _, none => (.error .notFound, fs)
  | .ok target, some entry => (.ok (), (fs.remove place).put target entry)

instance : FileStore (StateM FileSystem) where
  Temporary := Place
  read path fs := (fs.read path, fs)
  create path fs := fs.create path
  write place text fs := fs.write place text
  move place path fs := fs.move place path
  remove place fs := ((), fs.remove place)

/-! ### Machines -/

/-- A machine before a run: the usual directories, the device that is empty, nothing to be read from
the input, and a new working directory. -/
def machine : FileSystem where
  entries := (["dev", "null"], .file ⟨#[]⟩ true) :: (["dev", "stdin"], .file ⟨#[]⟩ true)
    :: ["bin", "dev", "etc", "home", "lib", "mnt", "opt", "proc", "root", "run", "sbin", "srv",
      "sys", "usr", "var"].map fun name => ([name], .directory true)
  workingDirectory := ["tmp", temporaryName]

end FileSystem

end TelemetryTypes
