import HubCard.Script
import HubCard.Text.Spelled

/-!
The command line of the replay: its options, what can be wrong with them and with the files they
name, and how such faults are reported.
-/

namespace HubCard.CommandLine

structure Options where
  config : String
  script : Option String
  themes : Option String
  dark : Bool
  deriving Repr, DecidableEq

inductive UsageFault where
  | unexpected (argument : String)
  | repeated (option : String)
  | noValue (option : String)
  | emptyValue (option : String)
  | unwantedValue (option : String)
  | noConfig
  deriving Repr, DecidableEq

def UsageFault.message : UsageFault → String
  | .unexpected argument => "unexpected argument '" ++ argument ++ "' found"
  | .repeated option => "the argument '" ++ option ++ "' cannot be used multiple times"
  | .noValue option => "a value is required for '" ++ option ++ "' but none was supplied"
  | .emptyValue option => "a value is required for '" ++ option ++ "' but none was supplied"
  | .unwantedValue option => "unexpected value for '" ++ option ++ "' found; no more were expected"
  | .noConfig => "the following required arguments were not provided:\n  --config <CONFIG>"

/-- What the arguments ask for. -/
inductive Request where
  | run (options : Options)
  | showVersion
  | showHelp
  deriving Repr, DecidableEq

/-- The options given so far. -/
structure Given where
  config : Option String
  script : Option String
  themes : Option String
  dark : Bool

namespace Given

/-- The options with a value, and how each is given. -/
def valued : List (String × (Given → Option String) × (Given → String → Given)) :=
  [("--config", Given.config, fun g v => { g with config := some v }),
    ("--script", Given.script, fun g v => { g with script := some v }),
    ("--themes", Given.themes, fun g v => { g with themes := some v })]

/-- Whether an argument can stand as the value of the option before it. -/
def isValue (argument : String) : Bool :=
  match argument.toList with
  | '-' :: _ :: _ => false
  | _ => true

def give (g : Given) (name value : String) : Except UsageFault Given :=
  match valued.find? (·.1 == name) with
  | none => .error (.unexpected name)
  | some (_, get, put) =>
    if (get g).isSome then .error (.repeated name)
    else if value.isEmpty then .error (.emptyValue name)
    else .ok (put g value)

def options (g : Given) : Except UsageFault Options :=
  match g.config with
  | some config => .ok ⟨config, g.script, g.themes, g.dark⟩
  | none => .error .noConfig

end Given

/-- The name of an option and the value joined to it by an equals sign, if there is one. -/
def splitJoined (argument : String) : String × Option String :=
  match argument.toList.span (· ≠ '=') with
  | (name, '=' :: value) => (String.ofList name, some (String.ofList value))
  | (name, _) => (String.ofList name, none)

/-- What an argument asks to be shown. Letters after a single dash are a cluster of options, of
which the first settles the matter. -/
def Request.ofArgument? (argument : String) : Option Request :=
  match argument.toList with
  | '-' :: 'V' :: _ => some .showVersion
  | '-' :: 'h' :: _ => some .showHelp
  | _ =>
    match argument with
    | "--version" => some .showVersion
    | "--help" => some .showHelp
    | _ => none

/-- Reads arguments from left to right; the first fault, or the first request to show something,
settles the matter. -/
def parseFrom (g : Given) : List String → Except UsageFault Request
  | [] => g.options.map .run
  | argument :: rest =>
    match Request.ofArgument? argument, splitJoined argument with
    | some request, _ => .ok request
    | none, ("--dark", none) =>
      if g.dark then .error (.repeated "--dark") else parseFrom { g with dark := true } rest
    | none, ("--", none) =>
      match rest with
      | [] => g.options.map .run
      | extra :: _ => .error (.unexpected extra)
    | none, (name, joined) =>
      if ["--dark", "--version", "--help"].contains name then .error (.unwantedValue name)
      else if !(Given.valued.any (·.1 == name)) then .error (.unexpected argument)
      else
        match joined with
        | some value =>
          match g.give name value with
          | .ok g => parseFrom g rest
          | .error fault => .error fault
        | none =>
          match rest with
          | [] => .error (.noValue name)
          | value :: after =>
            if Given.isValue value then
              match g.give name value with
              | .ok g => parseFrom g after
              | .error fault => .error fault
            else .error (.noValue name)

def parse (arguments : List String) : Except UsageFault Request :=
  parseFrom ⟨none, none, none, false⟩ arguments

def versionText : String := "remotecard-sim 0.2.0"

def helpText : String :=
  "Replay a host script against the remote card core\n\n" ++
    "Usage: remotecard-sim [OPTIONS] --config <CONFIG>\n\n" ++
    "Options:\n" ++
    "      --config <CONFIG>  Card configuration (JSON object, as produced by the config editor)\n" ++
    "      --script <SCRIPT>  JSON-lines script; reads stdin when omitted\n" ++
    "      --themes <THEMES>  Theme registry (JSON object of theme name → variables)\n" ++
    "      --dark             Resolve theme `modes.dark` instead of `modes.light`\n" ++
    "  -h, --help             Print help\n" ++
    "  -V, --version          Print version"

/-! ## Faults -/

/-- Why a replay ends before its end. -/
inductive Fault where
  | unreadableConfig (path reason : String)
  | invalidConfig (error : ConfigError)
  | unreadableThemes (path reason : String)
  | invalidThemes (fault : Json.Fault)
  | unopenedScript (path reason : String)
  | unreadableLine (number : Nat) (reason : String)
  | script (fault : Script.Fault)
  deriving Repr, DecidableEq

namespace Fault

def headline : Fault → String
  | .unreadableConfig path _ => "reading config " ++ path
  | .invalidConfig _ => "invalid card configuration"
  | .unreadableThemes path _ => "reading themes " ++ path
  | .invalidThemes _ => "invalid theme registry"
  | .unopenedScript path _ => "opening script " ++ path
  | .unreadableLine number _ => "reading script line " ++ Numeral.natText number
  | .script (.unreadable number _) => "script line " ++ Numeral.natText number
  | .script (.backwards number time last) =>
    "script line " ++ Numeral.natText number ++ ": time goes backwards ("
      ++ Numeral.natText time.toNat ++ " < " ++ Numeral.natText last.toNat ++ ")"

def cause? : Fault → Option String
  | .unreadableConfig _ reason => some reason
  | .invalidConfig error => some error.message
  | .unreadableThemes _ reason => some reason
  | .invalidThemes fault => some fault.message
  | .unopenedScript _ reason => some reason
  | .unreadableLine _ reason => some reason
  | .script (.unreadable _ fault) => some fault.message
  | .script (.backwards ..) => none

/-- A text with all its lines set in by four blanks. -/
def setIn (s : String) : String :=
  let margin := List.replicate 4 ' '
  String.ofList (margin ++ s.toList.flatMap fun c => if c = '\n' then c :: margin else [c])

/-- The report of a fault: a headline and, set in below it, the cause. -/
def report (f : Fault) : String :=
  "Error: " ++ f.headline ++
    match f.cause? with
    | some cause => "\n\nCaused by:\n" ++ setIn cause
    | none => ""

end Fault

/-- The text of a line of the log. -/
def logText (line : LogLine) : String :=
  Text.spelled line.render

/-- What comes of reading a file. -/
inductive Content where
  | text (content : String)
  | unopened (reason : String)
  /-- The file can be opened, but what it holds cannot be read. -/
  | unreadable (reason : String)
  deriving Repr, DecidableEq

/-- All that a replay needs before its first line. The script is absent where it is to come from
standard input; one that cannot be read has the reason in its place. -/
structure Prepared where
  card : Card
  themes : Dict Theme
  dark : Bool
  script : Option (Except String String)

def cardOf (text : String) : Except Fault Card :=
  match Config.ofText text >>= Card.new with
  | .ok card => .ok card
  | .error e => .error (.invalidConfig e)

def themesOf : Option String → Except Fault (Dict Theme)
  | none => .ok Dict.empty
  | some text =>
    match Theme.registry.ofText text with
    | .ok themes => .ok themes
    | .error fault => .error (.invalidThemes fault)

variable {m : Type → Type} [Monad m]

/-- The text of the file at a path. -/
def textAt (read : String → m Content) (fault : String → String → Fault) (path : String) :
    ExceptT Fault m String := do
  match ← read path with
  | .text content => pure content
  | .unopened reason | .unreadable reason => throw (fault path reason)

/-- The script at a path, which only has to be there; it is read line by line later on. -/
def scriptAt (read : String → m Content) (path : String) :
    ExceptT Fault m (Except String String) := do
  match ← read path with
  | .text content => pure (.ok content)
  | .unopened reason => throw (.unopenedScript path reason)
  | .unreadable reason => pure (.error reason)

/-- Reads the files that the options name, one after another, up to the first fault. -/
def prepare (read : String → m Content) (o : Options) : ExceptT Fault m Prepared := do
  let card ← cardOf (← textAt read .unreadableConfig o.config)
  let themes ← themesOf (← o.themes.mapM (textAt read .unreadableThemes))
  let script ← o.script.mapM (scriptAt read)
  pure ⟨card, themes, o.dark, script⟩

/-- The whole replay of a script: its text, or why it cannot be read. -/
def replay (p : Prepared) (script : Except String String) : List Script.Output × Option Fault :=
  let (r, first) := Script.Replay.begin p.card p.themes p.dark
  match script with
  | .ok text =>
    let (rest, fault) := r.run 1 (Text.lines text)
    (first ++ rest, fault.map .script)
  | .error reason => (first, some (.unreadableLine 1 reason))

end HubCard.CommandLine
