import TelemetryTypes.Yaml.Reader

/-!
# YAML as JSON

Every node with JSON as its value can be read: keys are text as written, the last of several equal
ones stays, and a number that is infinite or none becomes null. A tag outside the core schema has
no such value. A text without a document is null.
-/

namespace TelemetryTypes.Yaml

def isCustomTag (tag : Option String) : Bool := tag.any (·.toList.head? == some '!')

/-- The JSON value of a scalar value; an integer has to fit sixty-four bits. -/
def Value.toJson? : Value → Option Json
  | .null => some .null
  | .bool b => some (.bool b)
  | .integer n =>
    if -(Json.negativeBound : Int) ≤ n && n < (Json.integerBound : Int) then
      some (.number (.integer n))
    else none
  | .double x => some (.number (.double x))
  | .infinity _ => some .null
  | .notANumber => some .null
  | .text s => some (.string s)

namespace Reading

def checkTag (tag : Option String) (path : Path) (mark : Mark) : Reading Unit :=
  if isCustomTag tag then
    refuse (Mismatch.wrongType "enum" "any valid JSON value").message path mark
  else return ()

def entries (item : Path → Node → Reading Json) (path : Path) (wanted : String) :
    List (Node × Node) → Reading (List (String × Json))
  | [] => return []
  | (key, value) :: rest => do
    let name ← text wanted path (← follow key)
    let head ← item (valuePath path key) value
    return (name, head) :: (← entries item path "a string" rest)

/-- Reads a node in which at most `depth` collections contain each other. -/
def json (depth : Nat) (path : Path) (node : Node) : Reading Json := do
  match ← follow node with
  | .scalar mark tag style s =>
    checkTag tag path mark
    match scalarValue tag style s with
    | .error mismatch => refuse mismatch.message path mark
    | .ok value =>
      match value.toJson? with
      | some value => return value
      | none => refuse "JSON number out of range" path mark
  | .sequence mark tag items =>
    checkTag tag path mark
    match depth with
    | 0 => throw (.tooDeep mark)
    | depth + 1 => return .array (← items.zipIdx.mapM fun (n, i) => json depth (.item path i) n)
  | .mapping mark tag pairs =>
    checkTag tag path mark
    match depth with
    | 0 => throw (.tooDeep mark)
    | depth + 1 => return .ofEntries (← entries (json depth) path "a string key" pairs)

end Reading

def parse : String → Except ReadError Json := readText .null (Reading.json Reading.maxDepth .root)

end TelemetryTypes.Yaml
