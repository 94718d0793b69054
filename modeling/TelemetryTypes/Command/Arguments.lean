import TelemetryTypes.Text.Basic

/-!
# Arguments

A command line names an action and gives it options. An option is a switch, written with two dashes
and its name or with one dash and a letter, and the values of those that take some. Letters of
flags may stand together; a value may follow its switch after an equals sign, and after a letter
at once. The switch for documents takes all words up to the next option. Those for the log may
stand before and behind the action, and the latter count. A switch may come once, but the one for
documents and the one for more log entries as often as one likes. Help, and before the action the
version, may be asked for instead; what is behind that is not read.
-/

namespace TelemetryTypes.Command

structure Sources where
  inputs : List String
  config : Option String
  noDefaults : Bool
  deriving DecidableEq

inductive Action where
  | check (sources : Sources) (json : Bool)
  | generate (sources : Sources) (output : String)
  deriving DecidableEq

/-- A run: what to do, and what to log of it. -/
structure Invocation where
  verbosity : Nat
  logJson : Bool
  action : Action
  deriving DecidableEq

/-- Why a command line is no run. -/
inductive Stop where
  | usage | help | version
  deriving DecidableEq

/-! ### Switches -/

inductive Switch where
  | verbose | logJson | help | version | input | config | noDefaults | json | output
  deriving DecidableEq

namespace Switch

def name : Switch → String
  | verbose => "verbose"
  | logJson => "log-json"
  | help => "help"
  | version => "version"
  | input => "input"
  | config => "config"
  | noDefaults => "no-defaults"
  | json => "json"
  | output => "output"

def letter? : Switch → Option Char
  | verbose => some 'v'
  | help => some 'h'
  | version => some 'V'
  | input => some 'i'
  | output => some 'o'
  | _ => none

def takesValue : Switch → Bool
  | input => true
  | config => true
  | output => true
  | _ => false

def mayRepeat : Switch → Bool
  | verbose => true
  | input => true
  | _ => false

end Switch

def outerSwitches : List Switch := [.verbose, .logJson, .help, .version]

def sharedSwitches : List Switch := [.verbose, .logJson, .help, .input, .config, .noDefaults]

/-! ### Options -/

/-- A switch that was read, with its value if it takes one. -/
structure Use where
  switch : Switch
  value : String
  deriving DecidableEq

/-- What may come next: any option, a value that has to, or a value that may. -/
inductive Awaited where
  | option
  | value (switch : Switch)
  | moreValues (switch : Switch)
  deriving DecidableEq

/-- Adds a flag. Asking for help or the version stops the reading. -/
def addFlag (uses : List Use) (s : Switch) : Except Stop (List Use) :=
  match s with
  | .help => .error .help
  | .version => .error .version
  | s =>
    if !s.mayRepeat && uses.any (·.switch = s) then .error .usage
    else .ok (uses ++ [⟨s, ""⟩])

/-- Adds a value, which may not be empty. -/
def addValue (uses : List Use) (s : Switch) (value : List Char) : Except Stop (List Use) :=
  if value.isEmpty || (!s.mayRepeat && uses.any (·.switch = s)) then .error .usage
  else .ok (uses ++ [⟨s, String.ofList value⟩])

/-- Reads an option by name, with its value if that stands behind an equals sign. -/
def readNamed (known : List Switch) (uses : List Use) (text : List Char) :
    Except Stop (List Use × Awaited) := do
  let name := text.takeWhile (· != '=')
  let attached := text.dropWhile (· != '=')
  match known.find? (·.name.toList = name) with
  | none => .error .usage
  | some s =>
    match s.takesValue, attached with
    | true, [] => .ok (uses, .value s)
    | true, _ :: value => return (← addValue uses s value, .option)
    | false, [] => return (← addFlag uses s, .option)
    | false, _ => .error .usage

def readLetters (known : List Switch) (uses : List Use) :
    List Char → Except Stop (List Use × Awaited)
  | [] => .ok (uses, .option)
  | c :: rest =>
    match known.find? (·.letter? = some c) with
    | none => .error .usage
    | some s =>
      if s.takesValue then
        match rest with
        | [] => .ok (uses, .value s)
        | '=' :: value => do return (← addValue uses s value, .option)
        | value => do return (← addValue uses s value, .option)
      else do readLetters known (← addFlag uses s) rest

/-- Reads options up to the first word that is neither an option nor a value. Returns that word and
what follows it. Behind two dashes nothing may stand. -/
def readOptions (known : List Switch) (uses : List Use) (awaited : Awaited) :
    List String → Except Stop (List Use × List String)
  | [] =>
    match awaited with
    | .value _ => .error .usage
    | _ => .ok (uses, [])
  | arg :: rest =>
    match arg.toList, awaited with
    | '-' :: _ :: _, .value _ => .error .usage
    | ['-', '-'], _ => if rest.isEmpty then .ok (uses, []) else .error .usage
    | '-' :: '-' :: text, _ =>
      match readNamed known uses text with
      | .error stop => .error stop
      | .ok (uses, awaited) => readOptions known uses awaited rest
    | '-' :: c :: letters, _ =>
      match readLetters known uses (c :: letters) with
      | .error stop => .error stop
      | .ok (uses, awaited) => readOptions known uses awaited rest
    | _, .option => .ok (uses, arg :: rest)
    | word, .value s =>
      match addValue uses s word with
      | .error stop => .error stop
      | .ok uses => readOptions known uses (if s = .input then .moreValues s else .option) rest
    | word, .moreValues s =>
      match addValue uses s word with
      | .error stop => .error stop
      | .ok uses => readOptions known uses (.moreValues s) rest

/-! ### Command lines -/

def usageText : String :=
  "Usage: telgen [-v]... [--log-json] <ACTION>\n\n"
    ++ "Actions:\n"
    ++ "  check     Check that documents can be generated from\n"
    ++ "            -i, --input <FILE>... [--config <FILE>] [--no-defaults] [--json]\n"
    ++ "  generate  Write type definitions for documents\n"
    ++ "            -i, --input <FILE>... -o, --output <FILE> [--config <FILE>] [--no-defaults]\n"

def valuesOf (uses : List Use) (s : Switch) : List String :=
  (uses.filter (·.switch = s)).map (·.value)

def countOf (uses : List Use) (s : Switch) : Nat := (valuesOf uses s).length

def readAction (outer : List Use) (known : List Switch) (args : List String)
    (build : Sources → List Use → Except Stop Action) : Except Stop Invocation := do
  let (uses, rest) ← readOptions known [] .option args
  let inputs := valuesOf uses .input
  if !rest.isEmpty || inputs.isEmpty then .error .usage
  else
    let sources := ⟨inputs, (valuesOf uses .config).head?, 0 < countOf uses .noDefaults⟩
    let verbosity := if 0 < countOf uses .verbose then countOf uses .verbose
      else countOf outer .verbose
    return ⟨verbosity, 0 < countOf (outer ++ uses) .logJson, ← build sources uses⟩

def parse (args : List String) : Except Stop Invocation := do
  let (outer, rest) ← readOptions outerSwitches [] .option args
  match rest with
  | "check" :: rest =>
    readAction outer (sharedSwitches ++ [.json]) rest fun sources uses =>
      .ok (.check sources (0 < countOf uses .json))
  | "generate" :: rest =>
    readAction outer (sharedSwitches ++ [.output]) rest fun sources uses =>
      match valuesOf uses .output with
      | [] => .error .usage
      | output :: _ => .ok (.generate sources output)
  | ["help"] => .error .help
  | ["help", action] =>
    .error (if action ∈ ["check", "generate", "help"] then .help else .usage)
  | _ => .error .usage

end TelemetryTypes.Command
