import TelemetryTypes.Yaml.Token.Lexer

/-!
# From tokens to events

The events of a document tell its nodes in order: a scalar, an alias, or a collection with what it
holds between its start and its end. They are read with a stack of what is expected. A step takes
what is expected next off the stack, yields at most one event and puts on the stack what is
expected in its place.

A step that takes no token puts less on the stack than it takes off, by `Expected.weight`; so the
reading ends.
-/

namespace TelemetryTypes.Yaml

/-- What is said of a node before its content, and where it starts. -/
structure Properties (Anchor : Type) where
  anchor : Option Anchor
  tag : Option String
  mark : Mark

/-- A part of a document; anchors are told by name or by number. -/
inductive Event (Anchor : Type) where
  | alias (anchor : Anchor)
  | scalar (properties : Properties Anchor) (style : Style) (text : String)
  | sequenceStart (properties : Properties Anchor)
  | mappingStart (properties : Properties Anchor)
  | collectionEnd

/-- The empty plain scalar, where a node may be left out. -/
def Event.empty (mark : Mark) : Event String := .scalar ⟨none, none, mark⟩ .plain ""

/-! ### Tags -/

abbrev Handles := List (List Char × List Char)

/-- The handles that a document need not declare. -/
def Handles.standard : Handles :=
  [(['!'], ['!']), (['!', '!'], "tag:yaml.org,2002:".toList)]

/-- The tag of a handle and a suffix. A tag without handle is whole. -/
def Handles.expand (handles : Handles) (handle suffix : List Char) : Option String :=
  if handle.isEmpty then some (String.ofList suffix)
  else (handles.lookup handle).map fun expansion => String.ofList (expansion ++ suffix)

/-! ### Steps -/

inductive Expected where
  /-- A node; in a block the items of a sequence may stand no further right than what holds it. -/
  | node (block unindented : Bool)
  | content
  | blockItem | unindentedItem | blockKey | blockValue
  | flowItem (first : Bool)
  /-- The key, value and end of a mapping of one entry that is an item of a flow sequence. -/
  | pairKey | pairValue | pairEnd
  | flowKey (first : Bool)
  | flowValue
  /-- The value of a key that no indicator marks. -/
  | noFlowValue

/-- Bounds how many steps can follow without taking a token. -/
def Expected.weight : Expected → Nat
  | node _ _ => 2
  | content => 3
  | blockItem => 1
  | unindentedItem => 1
  | blockKey => 1
  | blockValue => 2
  | flowItem first => if first then 4 else 1
  | pairKey => 5
  | pairValue => 2
  | pairEnd => 1
  | flowKey first => if first then 5 else 1
  | flowValue => 2
  | noFlowValue => 2

/-- What a step yields: events, what is expected now, and the tokens left. -/
structure Step where
  events : List (Event String)
  expected : List Expected
  rest : List Token

/-- The anchor and the tag that stand before a node, in either order, and what follows. -/
def nodeProperties : List Token →
    Option (List Char) × Option (List Char × List Char) × List Token
  | ⟨.anchor name, _⟩ :: ⟨.tag handle suffix, _⟩ :: rest => (some name, some (handle, suffix), rest)
  | ⟨.tag handle suffix, _⟩ :: ⟨.anchor name, _⟩ :: rest => (some name, some (handle, suffix), rest)
  | ⟨.anchor name, _⟩ :: rest => (some name, none, rest)
  | ⟨.tag handle suffix, _⟩ :: rest => (none, some (handle, suffix), rest)
  | rest => (none, none, rest)

/-- Reads the start of a node that has properties. A node of properties only is an empty scalar. -/
def nodeContent (properties : Properties String) (block unindented : Bool) :
    List Token → Option Step
  | [] => none
  | t :: rest =>
    match t.kind with
    | .scalar style text => some ⟨[.scalar properties style (String.ofList text)], [], rest⟩
    | .flowSequenceStart => some ⟨[.sequenceStart properties], [.flowItem true], rest⟩
    | .flowMappingStart => some ⟨[.mappingStart properties], [.flowKey true], rest⟩
    | kind =>
      if unindented && kind = .blockEntry then
        some ⟨[.sequenceStart properties], [.unindentedItem], t :: rest⟩
      else if block && kind = .blockSequenceStart then
        some ⟨[.sequenceStart properties], [.blockItem], rest⟩
      else if block && kind = .blockMappingStart then
        some ⟨[.mappingStart properties], [.blockKey], rest⟩
      else if properties.anchor.isSome || properties.tag.isSome then
        some ⟨[.scalar properties .plain ""], [], t :: rest⟩
      else none

def node (handles : Handles) (block unindented : Bool) : List Token → Option Step
  | [] => none
  | ⟨.alias name, _⟩ :: rest => some ⟨[.alias (String.ofList name)], [], rest⟩
  | t :: rest => do
    let (anchor, tag, after) := nodeProperties (t :: rest)
    let tag ← match tag with
      | some (handle, suffix) => (handles.expand handle suffix).map some
      | none => some none
    nodeContent ⟨anchor.map String.ofList, tag, t.mark⟩ block unindented after

/-- Reads a node if one of the given kinds does not come first, and an empty one otherwise. -/
def nodeUnless (kinds : List Token.Kind) (expected : Expected) (mark : Token → Mark)
    (outer : List Expected) : List Token → Option Step
  | [] => none
  | t :: rest =>
    if t.kind ∈ kinds then some ⟨[.empty (mark t)], outer, t :: rest⟩
    else some ⟨[], expected :: outer, t :: rest⟩

/-- The tokens behind the comma that has to stand before all items but the first. -/
def afterComma (first : Bool) : List Token → Option (List Token)
  | ⟨.flowEntry, mark⟩ :: rest => some (if first then ⟨.flowEntry, mark⟩ :: rest else rest)
  | tokens => if first then some tokens else none

def step (handles : Handles) (expected : Expected) (tokens : List Token) : Option Step :=
  match expected, tokens with
  | _, [] => none
  | .node block unindented, tokens => node handles block unindented tokens
  | .content, t :: rest =>
    match t.kind with
    | .versionDirective _ _ => some ⟨[.empty t.mark], [], t :: rest⟩
    | .tagDirective _ _ => some ⟨[.empty t.mark], [], t :: rest⟩
    | _ => nodeUnless [.documentStart, .documentEnd, .streamEnd] (.node true false) Token.mark []
        (t :: rest)
  | .blockItem, t :: rest =>
    match t.kind with
    | .blockEntry =>
      nodeUnless [.blockEntry, .blockEnd] (.node true false) (fun _ => t.after) [.blockItem] rest
    | .blockEnd => some ⟨[.collectionEnd], [], rest⟩
    | _ => none
  | .unindentedItem, t :: rest =>
    match t.kind with
    | .blockEntry =>
      nodeUnless [.blockEntry, .key, .value, .blockEnd] (.node true false) (fun _ => t.after)
        [.unindentedItem] rest
    | _ => some ⟨[.collectionEnd], [], t :: rest⟩
  | .blockKey, t :: rest =>
    match t.kind with
    | .key =>
      nodeUnless [.key, .value, .blockEnd] (.node true true) (fun _ => t.after) [.blockValue] rest
    | .blockEnd => some ⟨[.collectionEnd], [], rest⟩
    | _ => none
  | .blockValue, t :: rest =>
    match t.kind with
    | .value =>
      nodeUnless [.key, .value, .blockEnd] (.node true true) (fun _ => t.after) [.blockKey] rest
    | _ => some ⟨[.empty t.mark], [.blockKey], t :: rest⟩
  | .flowItem _, ⟨.flowSequenceEnd, _⟩ :: rest => some ⟨[.collectionEnd], [], rest⟩
  | .flowItem first, tokens =>
    match afterComma first tokens with
    | none => none
    | some [] => none
    | some (t :: rest) =>
      match t.kind with
      | .key =>
        some ⟨[.mappingStart ⟨none, none, t.mark⟩], [.pairKey, .flowItem false], rest⟩
      | .flowSequenceEnd => some ⟨[.collectionEnd], [], rest⟩
      | _ => some ⟨[], [.node false false, .flowItem false], t :: rest⟩
  | .pairKey, t :: rest =>
    if t.kind ∈ [.value, .flowEntry, .flowSequenceEnd] then
      some ⟨[.empty t.after], [.pairValue], rest⟩
    else some ⟨[], [.node false false, .pairValue], t :: rest⟩
  | .pairValue, t :: rest =>
    match t.kind with
    | .value =>
      nodeUnless [.flowEntry, .flowSequenceEnd] (.node false false) Token.mark [.pairEnd] rest
    | _ => some ⟨[.empty t.mark], [.pairEnd], t :: rest⟩
  | .pairEnd, tokens => some ⟨[.collectionEnd], [], tokens⟩
  | .flowKey _, ⟨.flowMappingEnd, _⟩ :: rest => some ⟨[.collectionEnd], [], rest⟩
  | .flowKey first, tokens =>
    match afterComma first tokens with
    | none => none
    | some [] => none
    | some (t :: rest) =>
      match t.kind with
      | .key =>
        nodeUnless [.value, .flowEntry, .flowMappingEnd] (.node false false) Token.mark
          [.flowValue] rest
      | .flowMappingEnd => some ⟨[.collectionEnd], [], rest⟩
      | _ => some ⟨[], [.node false false, .noFlowValue], t :: rest⟩
  | .flowValue, t :: rest =>
    match t.kind with
    | .value =>
      nodeUnless [.flowEntry, .flowMappingEnd] (.node false false) Token.mark [.flowKey false] rest
    | _ => some ⟨[.empty t.mark], [.flowKey false], t :: rest⟩
  | .noFlowValue, t :: rest => some ⟨[.empty t.mark], [.flowKey false], t :: rest⟩

/-- What is left to do: it goes down with each step. -/
def work (expected : List Expected) (tokens : List Token) : Nat :=
  match expected with
  | [] => 8 * tokens.length
  | next :: outer => next.weight + work outer tokens

def run (handles : Handles) (expected : List Expected) (tokens : List Token) :
    Option (List (Event String) × List Token) :=
  match expected with
  | [] => some ([], tokens)
  | next :: outer =>
    match step handles next tokens with
    | none => none
    | some s =>
      if _less : work (s.expected ++ outer) s.rest < work (next :: outer) tokens then
        (run handles (s.expected ++ outer) s.rest).map fun later =>
          (s.events ++ later.1, later.2)
      else none
termination_by work expected tokens

/-! ### Documents -/

/-- Reads the directives of a document: at most one version, which has to be known, and one for
each handle. -/
def directives (versioned : Bool) (handles : Handles) :
    List Token → Option (Handles × List Token)
  | ⟨.versionDirective major minor, _⟩ :: rest =>
    if versioned || major ≠ 1 || (minor ≠ 1 && minor ≠ 2) then none
    else directives true handles rest
  | ⟨.tagDirective handle expansion, _⟩ :: rest =>
    if (handles.lookup handle).isSome then none
    else directives versioned (handles ++ [(handle, expansion)]) rest
  | rest => some (handles, rest)

/-- Reads a document; its start is marked if it has directives. -/
def document (tokens : List Token) : Option (List (Event String) × List Token) := do
  let (handles, rest) ← directives false [] tokens
  match rest with
  | ⟨.documentStart, _⟩ :: rest => run (handles ++ .standard) [.content] rest
  | _ =>
    if rest.length = tokens.length then run .standard [.node true false] rest else none

/-- The events of a text that is well-formed and holds at most one document. -/
def events (text : String) : Option (List (Event String)) := do
  let isStreamEnd (t : Token) : Bool := t.kind == .streamEnd
  let tokens ← tokens text
  if tokens.head?.any isStreamEnd then some []
  else
    let (events, rest) ← document tokens
    if (rest.dropWhile (·.kind == .documentEnd)).head?.any isStreamEnd then some events else none

end TelemetryTypes.Yaml
