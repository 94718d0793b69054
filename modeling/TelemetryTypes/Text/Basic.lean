/-!
# Texts in parts

A text is taken apart by its blanks, its line feeds and, if it is a path, its slashes.

A character is blank when it has the Unicode property White_Space, which is wider than ASCII white
space: it has the line and paragraph separators and the typographic spaces. Descriptions are trimmed
by this class before they are written as comments, and a document of blank characters only counts as
an empty one.

What is wrong with a text is reported by line and column. Lines are counted from one and end with a
line feed; a column counts the bytes of the line up to and with the byte that is at fault, so it may
fall inside a character.

A path is read in parts between slashes; empty parts and dots count for nothing. The file that a path
names is its last part, unless that leads upwards. The extension of a file is what follows its last
dot, unless nothing stands before it. The directory of a path is written as in the path.
-/

namespace TelemetryTypes.Text

/-! ### Blank characters and lines -/

/-- The Unicode property White_Space. -/
def isBlank (c : Char) : Bool :=
  (0x09 ≤ c.toNat && c.toNat ≤ 0x0D) || c.toNat == 0x20 || c.toNat == 0x85 || c.toNat == 0xA0
    || c.toNat == 0x1680 || (0x2000 ≤ c.toNat && c.toNat ≤ 0x200A)
    || c.toNat == 0x2028 || c.toNat == 0x2029 || c.toNat == 0x202F
    || c.toNat == 0x205F || c.toNat == 0x3000

def trimStart (s : List Char) : List Char := s.dropWhile isBlank

def trimEnd (s : List Char) : List Char := (s.reverse.dropWhile isBlank).reverse

def trim (s : List Char) : List Char := trimEnd (trimStart s)

def isBlankText (s : String) : Bool := s.toList.all isBlank

/-- The pieces between line feeds; a text without one is a single piece. -/
def pieces : List Char → List (List Char)
  | [] => [[]]
  | c :: rest =>
    if c = '\n' then [] :: pieces rest
    else match pieces rest with
      | [] => [[c]]
      | piece :: others => (c :: piece) :: others

theorem pieces_ne_nil (s : List Char) : pieces s ≠ [] := by
  cases s with
  | nil => simp [pieces]
  | cons c rest =>
    unfold pieces
    split
    · simp
    · split <;> simp

/-! ### Positions -/

structure Position where
  line : Nat
  column : Nat
  deriving DecidableEq, Repr

def byteCount : List Char → Nat
  | [] => 0
  | c :: rest => c.utf8Size + byteCount rest

/-- Moves a position over a number of bytes of a text. -/
def Position.advance (p : Position) (bytes : Nat) : List Char → Position
  | [] => p
  | c :: rest =>
    if bytes = 0 then p
    else if c = '\n' then advance ⟨p.line + 1, 0⟩ (bytes - 1) rest
    else
      let taken := min bytes c.utf8Size
      advance ⟨p.line, p.column + taken⟩ (bytes - taken) rest

def positionAfter (bytes : Nat) (s : List Char) : Position := Position.advance ⟨1, 0⟩ bytes s

def Position.message (p : Position) : String := s!"line {p.line} column {p.column}"

/-! ### Paths -/

def splitAtChar (separator : Char) : List Char → List (List Char)
  | [] => [[]]
  | c :: rest =>
    match splitAtChar separator rest with
    | [] => [[c]]
    | part :: others => if c = separator then [] :: part :: others else (c :: part) :: others

def pathParts (path : String) : List (List Char) :=
  (splitAtChar '/' path.toList).filter fun part => part != [] && part != ['.']

def fileName? (path : String) : Option (List Char) :=
  match (pathParts path).getLast? with
  | some part => if part = ['.', '.'] then none else some part
  | none => none

/-- What follows the last dot of a name that has one after its first character. -/
def extensionOf? (name : List Char) : Option (List Char) :=
  let after := (name.reverse.takeWhile (· != '.')).reverse
  let before := name.take (name.length - after.length - 1)
  if after.length = name.length || before.isEmpty then none else some after

def extension? (path : String) : Option String :=
  ((fileName? path).bind extensionOf?).map String.ofList

/-- Drops the slashes and dots at the end of a path that lead nowhere; the path is given with its
last character first. A dot that is the whole path stays. -/
def dropPathEnd : List Char → List Char
  | '/' :: rest => dropPathEnd rest
  | '.' :: '/' :: rest => dropPathEnd rest
  | s => s

def directoryOf (path : String) : String :=
  let file := dropPathEnd path.toList.reverse
  let directory := dropPathEnd (file.dropWhile (· != '/'))
  if !directory.isEmpty then String.ofList directory.reverse
  else if !file.isEmpty && path.toList.head? == some '/' then "/"
  else "."

end TelemetryTypes.Text
