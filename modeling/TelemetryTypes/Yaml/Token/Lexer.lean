import TelemetryTypes.Yaml.Token.Scalar

/-!
# From text to tokens

A key is known by the colon behind it, so whatever may be a key is kept in mind until the colon
comes or can no longer come: it has to stand on the line of the key, within `maxKeyLength`
bytes of its start. Then the token that marks a key is put in before it, and with the first
key of a block mapping the token that starts the mapping. Columns of open blocks are kept on a
stack; a token further left ends the blocks it leaves. A malformed text has no tokens.
-/

namespace TelemetryTypes.Yaml

/-- A token that may turn out to be a key: its number, its place, and whether a colon must follow
because nothing but a key may stand there. -/
structure PossibleKey where
  number : Nat
  mark : Mark
  required : Bool

/-- How many bytes behind the start of a key its colon may stand. -/
def maxKeyLength : Nat := 1024

/-- Whether a key can no longer get its colon. -/
def PossibleKey.isStale (k : PossibleKey) (m : Mark) : Bool :=
  k.mark.line < m.line || k.mark.index + maxKeyLength < m.index

structure Lexer where
  rest : List Char
  mark : Mark
  /-- The columns of open block collections, the innermost first. -/
  blocks : List Nat
  key : Option PossibleKey
  /-- The possible keys around each open flow collection, the innermost first. -/
  outer : List (Option PossibleKey)
  keyAllowed : Bool
  /-- The tokens so far, the last first. -/
  tokens : List Token

namespace Lexer

def ofText (s : List Char) : Lexer := ⟨s, .start, [], none, [], true, []⟩

def inFlow (l : Lexer) : Bool := !l.outer.isEmpty

/-- The least column of what the innermost block holds. -/
def indent (l : Lexer) : Nat := l.blocks.head?.elim 0 (· + 1)

def push (l : Lexer) (kind : Token.Kind) : Lexer :=
  { l with tokens := ⟨kind, l.mark⟩ :: l.tokens }

def moveTo (l : Lexer) (rest : List Char) : Lexer :=
  { l with rest := rest, mark := l.mark.past (l.rest.take (l.rest.length - rest.length)) }

def take (l : Lexer) (kind : Token.Kind) (rest : List Char) : Lexer := (l.push kind).moveTo rest

def indicator (l : Lexer) (kind : Token.Kind) (count : Nat) : Lexer :=
  l.take kind (l.rest.drop count)

/-! ### Possible keys -/

def refreshKey (m : Mark) : Option PossibleKey → Option (Option PossibleKey)
  | none => some none
  | some k =>
    if !k.isStale m then some (some k) else if k.required then none else some none

def refresh (l : Lexer) : Option Lexer := do
  let key ← refreshKey l.mark l.key
  let outer ← l.outer.mapM (refreshKey l.mark)
  some { l with key := key, outer := outer }

def dropKey (l : Lexer) : Option Lexer :=
  if l.key.any (·.required) then none else some { l with key := none }

def keepKey (l : Lexer) : Option Lexer :=
  if l.keyAllowed then do
    let l ← l.dropKey
    let required := !l.inFlow && l.blocks.head? == some l.mark.column
    some { l with key := some ⟨l.tokens.length, l.mark, required⟩ }
  else some l

/-! ### Blocks -/

/-- Opens a block collection here if this is further right than the innermost one. -/
def openBlock (l : Lexer) (kind : Token.Kind) : Lexer :=
  if !l.inFlow && l.indent ≤ l.mark.column then
    { l.push kind with blocks := l.mark.column :: l.blocks }
  else l

/-- Ends blocks from the innermost on while they stand at a column or right of it. -/
def closeBlocks (l : Lexer) (column : Nat) : Lexer :=
  if l.inFlow then l
  else
    let left := l.blocks.takeWhile (column ≤ ·)
    { l with
      blocks := l.blocks.drop left.length
      tokens := List.replicate left.length ⟨.blockEnd, l.mark⟩ ++ l.tokens }

/-- Adds the tokens that make a key of one of the tokens so far. -/
def confirmKey (l : Lexer) (k : PossibleKey) : Lexer :=
  let behind := l.tokens.take (l.tokens.length - k.number)
  let before := l.tokens.drop (l.tokens.length - k.number)
  let opens := !l.inFlow && l.indent ≤ k.mark.column
  { l with
    blocks := if opens then k.mark.column :: l.blocks else l.blocks
    tokens := behind ++ ⟨.key, k.mark⟩ ::
      (if opens then ⟨.blockMappingStart, k.mark⟩ :: before else before) }

/-! ### Tokens -/

/-- Passes what may stand between tokens, up to a character that does not. A byte order mark may
where a line starts, and a tab only where no key could start. In a block a key may start on a new
line. Returns whether a key may start. -/
def passGap (inFlow keyAllowed inComment lineStart : Bool) : List Char → Bool × List Char
  | [] => (keyAllowed, [])
  | c :: rest =>
    if isBreak c then passGap inFlow (keyAllowed || !inFlow) false true rest
    else if inComment || c == ' ' || (c == '\t' && (inFlow || !keyAllowed))
        || (lineStart && c == '\ufeff') then
      passGap inFlow keyAllowed inComment false rest
    else if c == '#' then passGap inFlow keyAllowed true false rest
    else (keyAllowed, c :: rest)

/-- Goes on to the next token and ends the blocks that it leaves. -/
def approach (l : Lexer) : Option Lexer := do
  let (keyAllowed, rest) := passGap l.inFlow l.keyAllowed false (l.mark.column == 0) l.rest
  let l ← refresh { l.moveTo rest with keyAllowed := keyAllowed }
  some (l.closeBlocks (l.mark.column + 1))

/-- The tokens of a text that ends here. The end stands at the start of a line. -/
def finish (l : Lexer) : Option (List Token) := do
  let mark := if l.mark.column = 0 then l.mark else ⟨l.mark.index, l.mark.line + 1, 0⟩
  let l ← ({ l with mark := mark }.closeBlocks 0).dropKey
  some (l.push .streamEnd).tokens.reverse

def atTop (l : Lexer) (kind : Token.Kind) (rest : List Char) : Option Lexer := do
  let l ← (l.closeBlocks 0).dropKey
  some { l.take kind rest with keyAllowed := false }

def openFlow (l : Lexer) (kind : Token.Kind) : Option Lexer := do
  let l ← l.keepKey
  some { l.indicator kind 1 with key := none, outer := l.key :: l.outer, keyAllowed := true }

def closeFlow (l : Lexer) (kind : Token.Kind) : Option Lexer := do
  let l ← l.dropKey
  some { l.indicator kind 1 with
    key := l.outer.head?.getD none, outer := l.outer.tail, keyAllowed := false }

def takeBlockEntry (l : Lexer) : Option Lexer :=
  if l.inFlow || l.keyAllowed then do
    let l ← (l.openBlock .blockSequenceStart).dropKey
    some { l.indicator .blockEntry 1 with keyAllowed := true }
  else none

def takeKey (l : Lexer) : Option Lexer :=
  if l.inFlow || l.keyAllowed then do
    let l ← (l.openBlock .blockMappingStart).dropKey
    some { l.indicator .key 1 with keyAllowed := !l.inFlow }
  else none

def takeValue (l : Lexer) : Option Lexer :=
  match l.key with
  | some k => some { (l.confirmKey k).indicator .value 1 with key := none, keyAllowed := false }
  | none =>
    if l.inFlow || l.keyAllowed then
      some { (l.openBlock .blockMappingStart).indicator .value 1 with keyAllowed := !l.inFlow }
    else none

def takeKeyPart (l : Lexer) (reading : Option (Token.Kind × List Char)) : Option Lexer := do
  let l ← l.keepKey
  let (kind, rest) ← reading
  some { l.take kind rest with keyAllowed := false }

def takeBlockScalar (l : Lexer) (style : Style) : Option Lexer := do
  let l ← l.dropKey
  let (text, rest) ← blockText (style == .literal) l.indent (l.rest.drop 1)
  some { l.take (.scalar style text) rest with keyAllowed := true }

/-- Takes a plain scalar. A key may start behind it if it ends with a line. -/
def takePlain (l : Lexer) : Option Lexer := do
  let l ← l.keepKey
  let reading ← plainText l.inFlow l.indent [] [] l.rest
  some { l.take (.scalar .plain reading.text) reading.rest with keyAllowed := reading.broken }

def startsPlain (inFlow : Bool) (c : Char) (rest : List Char) : Bool :=
  if c == '-' then !rest.head?.any isSpacing
  else if c == '?' || c == ':' then !inFlow && !atGap rest
  else !(isGap c || [',', '[', ']', '\x7b', '\x7d', '#', '&', '*', '!', '|', '>', '\'', '"', '%',
    '@', '`'].contains c)

def takeQuoted (l : Lexer) (style : Style) : Option Lexer :=
  l.takeKeyPart ((quotedText (style == .doubleQuoted) [] (l.rest.drop 1)).map fun reading =>
    (.scalar style reading.1, reading.2))

def takeToken (l : Lexer) (c : Char) (rest : List Char) : Option Lexer :=
  if l.mark.column == 0 && c == '%' then do
    let (kind, tail) ← directive rest
    l.atTop kind tail
  else if l.mark.column == 0 && atDocumentMark l.rest then
    l.atTop (if c == '-' then .documentStart else .documentEnd) (rest.drop 2)
  else if c == '-' && atGap rest then l.takeBlockEntry
  else if c == '?' && (l.inFlow || atGap rest) then l.takeKey
  else if c == ':' && (l.inFlow || atGap rest) then l.takeValue
  else match c with
    | '[' => l.openFlow .flowSequenceStart
    | '\x7b' => l.openFlow .flowMappingStart
    | ']' => l.closeFlow .flowSequenceEnd
    | '\x7d' => l.closeFlow .flowMappingEnd
    | ',' => do
      let l ← l.dropKey
      some { l.indicator .flowEntry 1 with keyAllowed := true }
    | '*' => l.takeKeyPart ((anchorName rest).map fun reading => (.alias reading.1, reading.2))
    | '&' => l.takeKeyPart ((anchorName rest).map fun reading => (.anchor reading.1, reading.2))
    | '!' => l.takeKeyPart (tag l.inFlow l.rest)
    | '\'' => l.takeQuoted .singleQuoted
    | '"' => l.takeQuoted .doubleQuoted
    | _ =>
      if c == '|' && !l.inFlow then l.takeBlockScalar .literal
      else if c == '>' && !l.inFlow then l.takeBlockScalar .folded
      else if startsPlain l.inFlow c rest then l.takePlain
      else none

def run (l : Lexer) : Option (List Token) :=
  match l.approach with
  | none => none
  | some ready =>
    match ready.rest with
    | [] => ready.finish
    | c :: rest =>
      match (ready.takeToken c rest).bind refresh with
      | none => none
      | some next => if _shorter : next.rest.length < l.rest.length then next.run else none
termination_by l.rest.length

end Lexer

/-- The tokens of a text, of which the last one ends the stream. -/
def tokens (text : String) : Option (List Token) :=
  let s := text.toList
  if s.all isPermitted then (Lexer.ofText s).run else none

end TelemetryTypes.Yaml
