/-!
# Names and literals of the generated source

Metric names are written in snake case and metadata type names in camel case; a generated type is
named by the Pascal case of either. Only ASCII letters and digits make words: every other character,
of whatever script, separates them.

A string is written into the generated source between single quotes. The quote, the backslash and the
three control characters that would end or blur a line are escaped with a backslash; every other
character stands for itself. A property key needs no quotes when it is an identifier, as a name can
stand bare exactly then.
-/

namespace TelemetryTypes.Text

/-! ### Pascal case -/

/-- Pascal case over characters. The flag says that the next letter or digit starts a word. -/
def pascalChars : Bool → List Char → List Char
  | _, [] => []
  | starts, c :: rest =>
    if c.isAlphanum then (if starts then c.toUpper else c) :: pascalChars false rest
    else pascalChars true rest

/-- The words of a name run together, each with its first character in upper case and the others
as written, so that inner humps survive. -/
def pascalCase (name : String) : String := String.ofList (pascalChars true name.toList)

/-! ### Identifiers -/

def isIdentifierStart (c : Char) : Bool := c.isAlpha || c == '_' || c == '$'

def isIdentifierPart (c : Char) : Bool := c.isAlphanum || c == '_' || c == '$'

def isIdentifierChars : List Char → Bool
  | [] => false
  | c :: rest => isIdentifierStart c && rest.all isIdentifierPart

/-- Whether a name can be written bare, as a property key or a type name. -/
def isIdentifier (name : String) : Bool := isIdentifierChars name.toList

theorem isIdentifierPart_of_start {c : Char} (h : isIdentifierStart c = true) :
    isIdentifierPart c = true := by
  simp only [isIdentifierStart, isIdentifierPart, Char.isAlphanum, Bool.or_eq_true] at h ⊢
  rcases h with (h | h) | h
  · exact .inl (.inl (.inl h))
  · exact .inl (.inr h)
  · exact .inr h

/-! ### String literals and property keys -/

def escapeLiteral (c : Char) : List Char :=
  if c = '\\' then ['\\', '\\']
  else if c = '\'' then ['\\', '\'']
  else if c = '\n' then ['\\', 'n']
  else if c = '\r' then ['\\', 'r']
  else if c = '\t' then ['\\', 't']
  else [c]

def literalChars (s : List Char) : List Char := '\'' :: (s.flatMap escapeLiteral ++ ['\''])

/-- The single-quoted literal of a text. -/
def literal (s : String) : String := String.ofList (literalChars s.toList)

/-- A property key: bare when it is an identifier, quoted otherwise. -/
def propertyKey (name : String) : String := if isIdentifier name then name else literal name

@[simp] theorem toList_literal (s : String) : (literal s).toList = literalChars s.toList := by
  simp [literal]

end TelemetryTypes.Text
