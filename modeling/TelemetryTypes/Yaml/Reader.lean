import TelemetryTypes.Yaml.Node
import TelemetryTypes.Yaml.Scalar

/-!
# Reading nodes

A reader of nodes either reads a value or refuses a node and says where it stands and by which keys
and indices it is reached. An alias is read as what it stands for. So that aliases cannot blow a
text up, only so many collections may contain each other and only so many aliases may be followed.
A text that is not well-formed is not read at all, whatever else is wrong with it.
-/

namespace TelemetryTypes.Yaml

/-- How a node is reached from the outermost one. -/
inductive Path where
  | root
  | item (outer : Path) (index : Nat)
  | entry (outer : Path) (key : String)
  /-- The value of a key that is an alias or no scalar. -/
  | unnamed (outer : Path)

namespace Path

mutual

/-- The text of a path; a key is separated from what it follows by a point. -/
def text : Path → String
  | root => "."
  | item outer index => text outer ++ "[" ++ toString index ++ "]"
  | entry outer key => stem outer ++ key
  | unnamed outer => stem outer ++ "?"

def stem : Path → String
  | root => ""
  | outer => text outer ++ "."

end

end Path

inductive ReadError where
  | malformed
  | refused (reason : String) (path : Path) (mark : Mark)
  /-- Too many collections contain each other. -/
  | tooDeep (mark : Mark)
  /-- Too many aliases were followed. -/
  | tooRepetitive

namespace ReadError

/-- Where a node stands, unless that is the start of the text. -/
def position (m : Mark) : String :=
  if m.line = 0 && m.column = 0 then "" else s!" at line {m.line + 1} column {m.column + 1}"

/-- The text of an error; what makes a text malformed is not told, nor a path that is written like
that to the outermost node. -/
def message? : ReadError → Option String
  | malformed => none
  | refused reason path mark =>
    some ((if path.text = Path.root.text then "" else path.text ++ ": ") ++ reason
      ++ position mark)
  | tooDeep mark => some ("recursion limit exceeded" ++ position mark)
  | tooRepetitive => some "repetition limit exceeded"

/-- What is said of a text that cannot be read, with the reason if it is told. -/
def explain (e : ReadError) (failure : String) : String :=
  failure ++ e.message?.elim "" (": " ++ ·)

end ReadError

/-- A reader in a document. It counts the aliases that it followed. -/
abbrev Reading := ReaderT Document (StateT Nat (Except ReadError))

namespace Reading

def maxDepth : Nat := 128

def aliasesPerEvent : Nat := 100

def refuse {α : Type} (reason : String) (path : Path) (mark : Mark) : Reading α :=
  throw (.refused reason path mark)

/-- The content of a node, or of the one that an alias stands for. -/
def follow : Node → Reading Content
  | .alias anchor => do
    let d ← read
    let followed ← get
    if d.eventCount * aliasesPerEvent ≤ followed then throw .tooRepetitive
    set (followed + 1)
    return d.anchored anchor
  | .content c => return c

def refuseType {α : Type} (expected : String) (path : Path) (c : Content) : Reading α :=
  let mismatch := match c with
    | .scalar _ tag style text =>
      match scalarValue tag style text with
      | .ok value => Mismatch.wrongType value.description expected
      | .error mismatch => mismatch
    | .sequence _ _ _ => .wrongType "sequence" expected
    | .mapping _ _ _ => .wrongType "map" expected
  refuse mismatch.message path c.mark

def text (expected : String) (path : Path) (c : Content) : Reading String :=
  match c with
  | .scalar _ _ _ s => return s
  | _ => refuseType expected path c

def valuePath (path : Path) : Node → Path
  | .content (.scalar _ _ _ key) => .entry path key
  | _ => .unnamed path

end Reading

/-- Reads the document of a text; a text without a document reads as `absent`. -/
def readText {α : Type} (absent : α) (reading : Node → Reading α) (text : String) :
    Except ReadError α :=
  match Document.ofText? text with
  | none => .error .malformed
  | some d =>
    match d.root with
    | none => .ok absent
    | some node => (ReaderT.run (reading node) d).run' 0

end TelemetryTypes.Yaml
