import TelemetryTypes.Yaml.Event

/-!
# From events to nodes

A document is a tree of nodes. An alias stands for the content of the node that its anchor names.
Anchors are numbered where they stand, by how many names of anchors came before; a name that comes
again counts once, so that two anchors may have one number, and then an alias stands for the later
content.

The tree is built from the last event to the first: behind the end of a collection its nodes are
gathered until its start comes.
-/

namespace TelemetryTypes.Yaml

mutual

inductive Node where
  | alias (anchor : Nat)
  | content (c : Content)

/-- What a node holds that is no alias. -/
inductive Content where
  | scalar (mark : Mark) (tag : Option String) (style : Style) (text : String)
  | sequence (mark : Mark) (tag : Option String) (items : List Node)
  | mapping (mark : Mark) (tag : Option String) (entries : List (Node × Node))

end

def Content.mark : Content → Mark
  | scalar mark _ _ _ => mark
  | sequence mark _ _ => mark
  | mapping mark _ _ => mark

/-! ### Anchors -/

abbrev AnchorNames := List (String × Nat)

def AnchorNames.number (known : AnchorNames) (p : Properties String) :
    Properties Nat × AnchorNames :=
  match p.anchor with
  | none => (⟨none, p.tag, p.mark⟩, known)
  | some name =>
    let n := known.length
    (⟨some n, p.tag, p.mark⟩, (name, n) :: known.filter (·.1 != name))

/-- Numbers the anchor of an event; an alias has to be of a known one. -/
def Event.number (known : AnchorNames) : Event String → Option (Event Nat × AnchorNames)
  | .alias name => (known.lookup name).map fun n => (.alias n, known)
  | .scalar p style text =>
    let (p, known) := known.number p
    some (.scalar p style text, known)
  | .sequenceStart p =>
    let (p, known) := known.number p
    some (.sequenceStart p, known)
  | .mappingStart p =>
    let (p, known) := known.number p
    some (.mappingStart p, known)
  | .collectionEnd => some (.collectionEnd, known)

def numberAnchors (known : AnchorNames) : List (Event String) → Option (List (Event Nat))
  | [] => some []
  | event :: rest => do
    let (event, known) ← event.number known
    return event :: (← numberAnchors known rest)

/-! ### Trees -/

/-- A tree on its way: the nodes behind an event in each collection around it, the innermost
first, and the contents that have an anchor, the last first. -/
structure Growth where
  levels : List (List Node)
  anchors : List (Nat × Content)

namespace Growth

def entries : List Node → List (Node × Node)
  | key :: value :: rest => (key, value) :: entries rest
  | _ => []

/-- Puts a node before those of the innermost collection. -/
def place (node : Node) : List (List Node) → List (List Node)
  | level :: outer => (node :: level) :: outer
  | [] => [[node]]

/-- Puts content before what follows it, and keeps it in mind under its anchor. -/
def placeContent (c : Content) (anchor : Option Nat) (levels : List (List Node))
    (anchors : List (Nat × Content)) : Growth :=
  ⟨place (.content c) levels, anchors ++ (anchor.map (·, c)).toList⟩

def extend (event : Event Nat) (g : Growth) : Growth :=
  let level := g.levels.head?.getD []
  match event with
  | .alias anchor => { g with levels := place (.alias anchor) g.levels }
  | .scalar p style text =>
    placeContent (.scalar p.mark p.tag style text) p.anchor g.levels g.anchors
  | .sequenceStart p =>
    placeContent (.sequence p.mark p.tag level) p.anchor g.levels.tail g.anchors
  | .mappingStart p =>
    placeContent (.mapping p.mark p.tag (entries level)) p.anchor g.levels.tail g.anchors
  | .collectionEnd => { g with levels := [] :: g.levels }

def ofEvents (events : List (Event Nat)) : Growth := events.foldr extend ⟨[[]], []⟩

end Growth

structure Document where
  /-- The outermost node, if there is a document at all. -/
  root : Option Node
  anchors : List (Nat × Content)
  eventCount : Nat

namespace Document

def ofText? (text : String) : Option Document := do
  let events ← numberAnchors [] (← events text)
  let tree := Growth.ofEvents events
  return ⟨(tree.levels.head?.getD []).head?, tree.anchors, events.length⟩

/-- The content of the node that has an anchor; every anchor of an alias is that of a node. -/
def anchored (d : Document) (anchor : Nat) : Content :=
  (d.anchors.lookup anchor).getD (.scalar .start none .plain "")

end Document

end TelemetryTypes.Yaml
