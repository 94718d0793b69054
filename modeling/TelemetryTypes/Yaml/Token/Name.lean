import TelemetryTypes.Yaml.Token.Basic

/-!
# Names, tags and directives

An anchor or alias has a name of letters, digits, underscores and hyphens. A tag is a handle and a
suffix, or a whole tag between angle brackets, which has the empty handle; octets that may not
stand in a tag are written in hexadecimal after a percent sign, and have to be the UTF-8 form of
characters. The readers return what follows, or nothing where the text is malformed.
-/

namespace TelemetryTypes.Yaml

def isNameChar (c : Char) : Bool := c.isAlphanum || c == '_' || c == '-'

def anchorName (s : List Char) : Option (List Char × List Char) :=
  let name := s.takeWhile isNameChar
  let rest := s.dropWhile isNameChar
  let ended := atGap rest || rest.head?.any (['?', ':', ',', ']', '\x7d', '%', '@', '`'].contains ·)
  if !name.isEmpty && ended then some (name, rest) else none

/-! ### Tags -/

def hexDigit? (c : Char) : Option Nat :=
  if c.isDigit then some (c.toNat - '0'.toNat)
  else if 'a' ≤ c && c ≤ 'f' then some (c.toNat - 'a'.toNat + 10)
  else if 'A' ≤ c && c ≤ 'F' then some (c.toNat - 'A'.toNat + 10)
  else none

/-- Whether a character may stand in a tag as it is; the last three only where a tag is whole. -/
def isTagChar (whole : Bool) (c : Char) : Bool :=
  isNameChar c || [';', '/', '?', ':', '@', '&', '=', '+', '$', '.', '!', '~', '*', '\'', '(',
    ')'].contains c || (whole && [',', '[', ']'].contains c)

/-- How many octets the UTF-8 form of a character has that starts with the given one. -/
def octetCount? (lead : Nat) : Option Nat :=
  if lead < 0x80 then some 1
  else if 0xC0 ≤ lead && lead < 0xE0 then some 2
  else if 0xE0 ≤ lead && lead < 0xF0 then some 3
  else if 0xF0 ≤ lead && lead < 0xF8 then some 4
  else none

/-- Reads the characters of a tag; `owed` octets of a character are still to come, and `done` are
the characters so far, the last first. Every octet counts as a character. -/
def tagText (whole : Bool) (owed : Nat) (done : List Char) :
    List Char → Option (List Char × List Char)
  | '%' :: a :: b :: rest =>
    match hexDigit? a, hexDigit? b with
    | some a, some b =>
      let octet := 16 * a + b
      match owed with
      | 0 =>
        match octetCount? octet with
        | some n => tagText whole (n - 1) (Char.ofNat octet :: done) rest
        | none => none
      | owed + 1 =>
        if 0x80 ≤ octet && octet < 0xC0 then tagText whole owed (Char.ofNat octet :: done) rest
        else none
    | _, _ => none
  | c :: rest =>
    if owed ≠ 0 || c == '%' then none
    else if isTagChar whole c then tagText whole 0 (c :: done) rest
    else some (done.reverse, c :: rest)
  | [] => if owed = 0 then some (done.reverse, []) else none

/-- Reads a handle: an exclamation mark, or a name between two of them. What follows the first one
and is no handle is not taken. -/
def handle : List Char → Option (List Char × List Char)
  | '!' :: rest =>
    let name := rest.takeWhile isNameChar
    match rest.dropWhile isNameChar with
    | '!' :: tail => some ('!' :: name ++ ['!'], tail)
    | _ => some (['!'], rest)
  | _ => none

/-- Reads a tag up to the gap after it; in a flow collection a comma may follow as well. The tag
that is a single exclamation mark has no handle. -/
def tag (inFlow : Bool) (s : List Char) : Option (Token.Kind × List Char) := do
  let (kind, rest) ← match s with
    | '!' :: '<' :: inner => do
      let (text, rest) ← tagText true 0 [] inner
      match rest with
      | '>' :: tail => if text.isEmpty then none else some (Token.Kind.tag [] text, tail)
      | _ => none
    | _ => do
      let (name, rest) ← handle s
      let (suffix, rest) ← tagText false 0 [] rest
      if suffix.isEmpty then
        if name = ['!'] then some (Token.Kind.tag [] name, rest) else none
      else some (Token.Kind.tag name suffix, rest)
  if atGap rest || (inFlow && rest.head? == some ',') then some (kind, rest) else none

/-! ### Directives -/

def versionNumber (s : List Char) : Option (Nat × List Char) :=
  let digits := s.takeWhile Char.isDigit
  if digits.isEmpty || 9 < digits.length then none
  else some (digits.foldl (fun n c => 10 * n + (c.toNat - '0'.toNat)) 0, s.dropWhile Char.isDigit)

def version (s : List Char) : Option (Token.Kind × List Char) := do
  let (major, s) ← versionNumber s
  let '.' :: s := s | none
  let (minor, s) ← versionNumber s
  some (.versionDirective major minor, s)

def tagDirective (s : List Char) : Option (Token.Kind × List Char) := do
  let (name, s) ← handle s
  if !s.head?.any isSpacing then none
  let (expansion, s) ← tagText true 0 [] (s.dropWhile isSpacing)
  if !expansion.isEmpty && atGap s then some (.tagDirective name expansion, s) else none

/-- Passes what may follow on a line: spacing and a comment. -/
def restOfLine (s : List Char) : Option (List Char) :=
  let s := s.dropWhile isSpacing
  let s := if s.head? == some '#' then s.dropWhile (!isBreak ·) else s
  if s.head?.all isBreak then some (takeBreak s).2 else none

def directive (s : List Char) : Option (Token.Kind × List Char) := do
  let name := s.takeWhile isNameChar
  let s := s.dropWhile isNameChar
  if !atGap s then none
  let value := s.dropWhile isSpacing
  let (kind, rest) ←
    if name = ['Y', 'A', 'M', 'L'] then version value
    else if name = ['T', 'A', 'G'] then tagDirective value
    else none
  let rest ← restOfLine rest
  some (kind, rest)

end TelemetryTypes.Yaml
