import TelemetryTypes.Yaml.Token.Name

/-!
# Scalars

A plain scalar is words and the gaps between them. It ends before a comment, before a colon that a
gap follows, in a flow collection before one of its indicators, and in a block where a line is not
indented far enough or looks like the mark of a document.

Between single quotes only a quote is special and is written twice. Between double quotes a backslash
starts an escape, or takes away the line break after it. Either way a gap that breaks the line is
folded, and no line of a scalar may look like the mark of a document.

The header of a block scalar may tell how far it is indented and what becomes of the breaks at its
end; else the first line that is not blank tells the former, and one break is kept. A literal scalar
keeps its breaks. A folded one makes a space of a single break between two lines neither of which
starts with spacing, and drops the first of several.
-/

namespace TelemetryTypes.Yaml

/-! ### Plain scalars -/

def isFlowIndicator (c : Char) : Bool := [',', '[', ']', '\x7b', '\x7d'].contains c

/-- Reads a word; a colon may not stand before an indicator of flow collections. Returns the word
with its last character first. -/
def plainWord (inFlow : Bool) (done : List Char) : List Char → Option (List Char × List Char)
  | [] => some (done, [])
  | c :: rest =>
    if isGap c then some (done, c :: rest)
    else if inFlow && c == ':' && rest.head?.any (fun d => d == '?' || isFlowIndicator d) then none
    else if (c == ':' && atGap rest) || (inFlow && isFlowIndicator c) then some (done, c :: rest)
    else plainWord inFlow (c :: done) rest

/-- Whether a tab stands in the indentation of a line after the first; `column` is none before the
first break. -/
def hasTabIndent (indent : Nat) : Option Nat → List Char → Bool
  | _, [] => false
  | column, c :: rest =>
    if isBreak c then hasTabIndent indent (some 0) rest
    else match column with
      | none => hasTabIndent indent none rest
      | some k => (c == '\t' && k < indent) || hasTabIndent indent (some (k + 1)) rest

/-- A plain scalar that was read: its text, whether a line was broken behind it, and what follows.
-/
structure PlainReading where
  text : List Char
  broken : Bool
  rest : List Char

/-- Reads a plain scalar on from a gap; `done` are the characters before the gap, the last first.
-/
def plainText (inFlow : Bool) (indent : Nat) (done gap s : List Char) : Option PlainReading :=
  let broken := gap.any isBreak
  let stop : Option PlainReading := some ⟨done.reverse, broken, s⟩
  if (broken && (lastLine gap).isEmpty && atDocumentMark s) || s.head? == some '#' then stop
  else match plainWord inFlow [] s with
    | none => none
    | some ([], _) => stop
    | some (word, rest) =>
      let next := rest.takeWhile isGap
      let tail := rest.dropWhile isGap
      let done := word ++ (foldedGap gap).reverse ++ done
      if next.isEmpty then some ⟨done.reverse, false, rest⟩
      else if hasTabIndent indent none next then none
      else if !inFlow && next.any isBreak && (lastLine next).length < indent then
        some ⟨done.reverse, true, tail⟩
      else if _shorter : tail.length < s.length then plainText inFlow indent done next tail
      else none
termination_by s.length

/-! ### Quoted scalars -/

def simpleEscape? : Char → Option Char
  | '0' => some '\x00'
  | 'a' => some '\x07'
  | 'b' => some '\x08'
  | 't' => some '\t'
  | '\t' => some '\t'
  | 'n' => some '\n'
  | 'v' => some '\x0b'
  | 'f' => some '\x0c'
  | 'r' => some '\r'
  | 'e' => some '\x1b'
  | ' ' => some ' '
  | '"' => some '"'
  | '/' => some '/'
  | '\\' => some '\\'
  | 'N' => some '\u0085'
  | '_' => some '\u00a0'
  | 'L' => some '\u2028'
  | 'P' => some '\u2029'
  | _ => none

def codeLength? : Char → Option Nat
  | 'x' => some 2
  | 'u' => some 4
  | 'U' => some 8
  | _ => none

def hexCode (value : Nat) : Nat → List Char → Option (Nat × List Char)
  | 0, s => some (value, s)
  | count + 1, c :: rest => do hexCode (16 * value + (← hexDigit? c)) count rest
  | _ + 1, [] => none

/-- Reads an escape after its backslash; a code has to be that of a character. -/
def quotedEscape : List Char → Option (Char × List Char)
  | [] => none
  | c :: rest =>
    match simpleEscape? c with
    | some plain => some (plain, rest)
    | none => do
      let (code, rest) ← hexCode 0 (← codeLength? c) rest
      if code.isValidChar then some (Char.ofNat code, rest) else none

/-- Reads a quoted scalar after its opening quote; `done` are the characters so far, the last
first. -/
def quotedText (double : Bool) (done : List Char) : List Char → Option (List Char × List Char)
  | [] => none
  | '\'' :: '\'' :: rest =>
    if double then quotedText double ('\'' :: done) ('\'' :: rest)
    else quotedText double ('\'' :: done) rest
  | c :: rest =>
    if c == (if double then '"' else '\'') then some (done.reverse, rest)
    else if double && c == '\\' then
      match takeBreak rest with
      | ([], _) =>
        match quotedEscape rest with
        | some (c, tail) =>
          if _shorter : tail.length < rest.length + 1 then quotedText double (c :: done) tail
          else none
        | none => none
      | (_, line) =>
        let gap := line.takeWhile isGap
        let tail := line.dropWhile isGap
        if (lastLine gap).isEmpty && atDocumentMark tail then none
        else if _shorter : tail.length < rest.length + 1 then
          quotedText double ((lineBreaks gap).reverse ++ done) tail
        else none
    else if isGap c then
      let gap := c :: rest.takeWhile isGap
      let tail := rest.dropWhile isGap
      if (lastLine gap).isEmpty && atDocumentMark tail then none
      else if _shorter : tail.length < rest.length + 1 then
        quotedText double ((foldedGap gap).reverse ++ done) tail
      else none
    else quotedText double (c :: done) rest
termination_by s => s.length
decreasing_by all_goals first | assumption | simp only [List.length_cons]; omega

/-! ### Block scalars -/

/-- What becomes of the breaks at the end of a block scalar. -/
inductive Chomping where
  | strip | clip | keep
  deriving DecidableEq, Repr

def chomping? : List Char → Option (Chomping × List Char)
  | '+' :: rest => some (.keep, rest)
  | '-' :: rest => some (.strip, rest)
  | _ => none

/-- Reads what a header says of the indentation; nothing where it says zero. -/
def indentation (s : List Char) : Option (Option Nat × List Char) :=
  match s with
  | c :: rest =>
    if c == '0' then none
    else if c.isDigit then some (some (c.toNat - '0'.toNat), rest)
    else some (none, s)
  | [] => some (none, s)

/-- Reads a header; either part may come first. -/
def blockHeader (s : List Char) : Option ((Chomping × Option Nat) × List Char) := do
  match chomping? s with
  | some (chomping, s) =>
    let (indent, s) ← indentation s
    some ((chomping, indent), ← restOfLine s)
  | none =>
    let (indent, s) ← indentation s
    let (chomping, s) := (if indent.isSome then chomping? s else none).getD (.clip, s)
    some ((chomping, indent), ← restOfLine s)

/-- Blank lines that were passed: their breaks, the last first, the column of the widest line, the
column that was reached, and what follows. -/
structure BlankLines where
  breaks : List Char
  widest : Nat
  column : Nat
  rest : List Char

/-- Passes blank lines and the indentation of the line after them, which is at most `indent` wide
if that is known. No tab may stand in it. -/
def blankLines (indent : Option Nat) (breaks : List Char) (widest column : Nat) :
    List Char → Option BlankLines
  | [] => some ⟨breaks, max widest column, column, []⟩
  | '\r' :: '\n' :: rest => blankLines indent ('\n' :: breaks) (max widest column) 0 rest
  | c :: rest =>
    let within := indent.all (column < ·)
    if within && c == ' ' then blankLines indent breaks widest (column + 1) rest
    else if within && c == '\t' then none
    else if isBreak c then blankLines indent (breakText c :: breaks) (max widest column) 0 rest
    else some ⟨breaks, max widest column, column, c :: rest⟩

/-- The text of a block scalar and the breaks behind it, all with the last character first: the
one that ends its last line, and those of blank lines. -/
structure BlockText where
  text : List Char
  ending : List Char
  blank : List Char
  rest : List Char

/-- Reads the lines of a block scalar that have its indentation; `spaced` tells whether the line
before starts with spacing. -/
def blockLines (literal : Bool) (indent : Nat) (before : BlockText) (spaced : Bool)
    (column : Nat) : Option BlockText :=
  let s := before.rest
  if column ≠ indent || s.isEmpty then some before
  else
    let starts := s.head?.any isSpacing
    let joined :=
      if !literal && before.ending == ['\n'] && !spaced && !starts then
        if before.blank.isEmpty then ' ' :: before.text else before.blank ++ before.text
      else before.blank ++ before.ending ++ before.text
    let line := s.takeWhile (!isBreak ·)
    let (ending, rest) := takeBreak (s.dropWhile (!isBreak ·))
    match blankLines (some indent) [] 0 0 rest with
    | none => none
    | some next =>
      if _shorter : next.rest.length < before.rest.length then
        blockLines literal indent ⟨line.reverse ++ joined, ending, next.breaks, next.rest⟩ starts
          next.column
      else none
termination_by before.rest.length

/-- Reads a block scalar after its indicator, inside a block of which `outer` is the least column
of what it holds. -/
def blockText (literal : Bool) (outer : Nat) (s : List Char) :
    Option (List Char × List Char) := do
  let ((chomping, given), s) ← blockHeader s
  let given := given.map (outer - 1 + ·)
  let first ← blankLines given [] 0 0 s
  let indent := given.getD (max first.widest (max outer 1))
  let block ← blockLines literal indent ⟨[], [], first.breaks, first.rest⟩ false first.column
  let text := match chomping with
    | .strip => block.text
    | .clip => block.ending ++ block.text
    | .keep => block.blank ++ block.ending ++ block.text
  some (text.reverse, block.rest)

end TelemetryTypes.Yaml
