/-!
# Marks and tokens

A mark is a place in a YAML text. It is a function of the characters before it: a column counts them
and an index the bytes they take. A carriage return that a line feed follows ends one line with it.
Besides these two, the next line and the Unicode line and paragraph separators end lines. In scalars
every break reads as a line feed, except that the two separators stay as they are.

A YAML text is a sequence of tokens. Some stand in the text: the indicators, the names of anchors and
aliases, tags, scalars and directives. Others say what indentation means: where a block collection
starts and ends, and that what follows is a key.
-/

namespace TelemetryTypes.Yaml

/-! ### Marks and line breaks -/

/-- A place in a text; all three are counted from zero. -/
structure Mark where
  index : Nat
  line : Nat
  column : Nat
  deriving DecidableEq, Repr

def Mark.start : Mark := ⟨0, 0, 0⟩

/-- Whether a character separates lines or paragraphs and nothing else. -/
def isSeparator (c : Char) : Bool := c == '\u2028' || c == '\u2029'

def isBreak (c : Char) : Bool := c == '\n' || c == '\r' || c == '\u0085' || isSeparator c

def isSpacing (c : Char) : Bool := c == ' ' || c == '\t'

def isGap (c : Char) : Bool := isSpacing c || isBreak c

/-- Whether a text ends here or goes on with a gap. -/
def atGap : List Char → Bool
  | [] => true
  | c :: _ => isGap c

def Mark.past (m : Mark) : List Char → Mark
  | [] => m
  | '\r' :: '\n' :: rest => past ⟨m.index + 2, m.line + 1, 0⟩ rest
  | c :: rest =>
    let index := m.index + c.utf8Size
    past (if isBreak c then ⟨index, m.line + 1, 0⟩ else ⟨index, m.line, m.column + 1⟩) rest

/-- What a break reads as in a scalar. -/
def breakText (c : Char) : Char := if isSeparator c then c else '\n'

def lineBreaks : List Char → List Char
  | [] => []
  | '\r' :: '\n' :: rest => '\n' :: lineBreaks rest
  | c :: rest => if isBreak c then breakText c :: lineBreaks rest else lineBreaks rest

/-- Takes the break that a text starts with, if any, as scalars read it. -/
def takeBreak : List Char → List Char × List Char
  | [] => ([], [])
  | '\r' :: '\n' :: rest => (['\n'], rest)
  | c :: rest => if isBreak c then ([breakText c], rest) else ([], c :: rest)

def lastLine (s : List Char) : List Char := (s.reverse.takeWhile (!isBreak ·)).reverse

/-- What a gap inside a scalar of several lines reads as. Within a line it stays as it is. A line
feed alone reads as a space, and gives way to the breaks after it. -/
def foldedGap (gap : List Char) : List Char :=
  match lineBreaks gap with
  | [] => gap
  | '\n' :: [] => [' ']
  | '\n' :: more => more
  | breaks => breaks

/-- Whether a line starts with the mark that starts or ends a document. -/
def atDocumentMark : List Char → Bool
  | '-' :: '-' :: '-' :: rest => atGap rest
  | '.' :: '.' :: '.' :: rest => atGap rest
  | _ => false

def isPermitted (c : Char) : Bool :=
  let n := c.toNat
  n == 0x09 || n == 0x0A || n == 0x0D || (0x20 ≤ n && n ≤ 0x7E) || n == 0x85
    || (0xA0 ≤ n && n ≤ 0xD7FF) || (0xE000 ≤ n && n ≤ 0xFFFD) || 0x10000 ≤ n

/-! ### Tokens -/

inductive Style where
  | plain | singleQuoted | doubleQuoted | literal | folded
  deriving DecidableEq, Repr

inductive Token.Kind where
  | streamEnd | documentStart | documentEnd
  | versionDirective (major minor : Nat)
  | tagDirective (handle expansion : List Char)
  | blockSequenceStart | blockMappingStart | blockEnd
  | flowSequenceStart | flowSequenceEnd | flowMappingStart | flowMappingEnd
  | blockEntry | flowEntry | key | value
  | alias (name : List Char)
  | anchor (name : List Char)
  | tag (handle suffix : List Char)
  | scalar (style : Style) (text : List Char)
  deriving DecidableEq, Repr

structure Token where
  kind : Token.Kind
  mark : Mark
  deriving DecidableEq, Repr

/-- The mark after an indicator of one character. -/
def Token.after (t : Token) : Mark := ⟨t.mark.index + 1, t.mark.line, t.mark.column + 1⟩

end TelemetryTypes.Yaml
