import ZoneGraph.Cli.OutputFormat

/-! The arguments of the command line. A command is a path of words; the options that
concern every command may stand before, between and after these words, and what stands
further to the right counts. -/
namespace ZoneGraph.Cli

/-! ### Commands and options -/

/-- A place on the way to a command. -/
inductive Level where
  | top
  | synth
  | records
  | check
  | config
  | configPath
  deriving DecidableEq

namespace Level

def words : Level → List (String × Level)
  | .top => [("synth", .synth), ("records", .records), ("check", .check), ("config", .config)]
  | .config => [("path", .configPath)]
  | _ => []

def programName : Level → String
  | .top => "zonekit"
  | .synth => "zonekit-synth"
  | .records => "zonekit-records"
  | .check => "zonekit-check"
  | .config => "zonekit-config"
  | .configPath => "zonekit-config-path"

end Level

inductive Switch where
  | deployment
  | output
  | verbose
  | noColor
  | out
  | zone
  | help
  | version
  deriving DecidableEq

namespace Switch

def takesValue : Switch → Bool
  | .deployment | .output | .out | .zone => true
  | _ => false

/-- The options of every place, by their long names. -/
def longNames : List (String × Switch) :=
  [("deployment", .deployment), ("output", .output), ("verbose", .verbose), ("no-color", .noColor),
    ("help", .help), ("version", .version)]

def letters : List (Char × Switch) :=
  [('c', .deployment), ('o', .output), ('v', .verbose), ('h', .help), ('V', .version)]

def ofLongName? (level : Level) (name : String) : Option Switch :=
  match level, name with
  | .synth, "out" => some .out
  | .records, "zone" => some .zone
  | _, name => longNames.lookup name

def ofLetter? (level : Level) (letter : Char) : Option Switch :=
  match level, letter with
  | .records, 'z' => some .zone
  | _, letter => letters.lookup letter

end Switch

/-! ### Reading -/

/-- Why the command line stops before any command: it is wrong, or it asks for help or
for the version. -/
inductive Stop where
  | usage
  | help
  | version (program : String)
  deriving DecidableEq

/-- The options given at one place. The last one may still wait with its value, which is
looked at when another option follows, or after all that stands further on. -/
structure Given where
  deployment : Option String := none
  output : Option OutputFormat := none
  verbose : Bool := false
  noColor : Bool := false
  out : Option String := none
  zone : Option String := none
  waiting : Option (Switch × String) := none

namespace Given

/-- Sets an option that has a value. A path must not be empty, and no option may be set
twice at one place. -/
def setValue (switch : Switch) (value : String) (given : Given) : Except Stop Given :=
  match switch with
  | .deployment =>
    if given.deployment.isSome || value.isEmpty then .error .usage
    else .ok { given with deployment := some value }
  | .out =>
    if given.out.isSome || value.isEmpty then .error .usage
    else .ok { given with out := some value }
  | .zone => if given.zone.isSome then .error .usage else .ok { given with zone := some value }
  | .output =>
    match given.output, OutputFormat.ofName? value with
    | none, some format => .ok { given with output := some format }
    | _, _ => .error .usage
  | _ => .error .usage

def settle (given : Given) : Except Stop Given :=
  match given.waiting with
  | none => .ok given
  | some (switch, value) => ({ given with waiting := none } : Given).setValue switch value

end Given

/-- The places on the way so far, the last one apart, and what was given there. -/
structure Scan where
  level : Level := .top
  given : Given := {}
  before : List Given := []

namespace Scan

/-- Sets an option that has a value at the last place. -/
def setValue (switch : Switch) (value : String) (scan : Scan) : Except Stop Scan :=
  (scan.given.setValue switch value).map fun given => { scan with given }

/-- Sets the option that waits at the last place, if one does. -/
def settle (scan : Scan) : Except Stop Scan :=
  scan.given.settle.map fun given => { scan with given }

def setFlag (switch : Switch) (scan : Scan) : Except Stop Scan :=
  let given := scan.given
  match switch with
  | .verbose =>
    if given.verbose then .error .usage else .ok { scan with given := { given with verbose := true } }
  | .noColor =>
    if given.noColor then .error .usage else .ok { scan with given := { given with noColor := true } }
  | .help => .error .help
  | .version => .error (.version scan.level.programName)
  | _ => .error .usage

def goTo (level : Level) (scan : Scan) : Scan :=
  { level, before := scan.before ++ [scan.given] }

def isSwitch (argument : String) : Bool :=
  match argument.toList with
  | '-' :: _ :: _ => true
  | _ => false

/-- Reads the letters of one argument. An option whose value does not follow in it is
left over. -/
def readLetters (scan : Scan) : List Char → Except Stop (Scan × Option Switch)
  | [] => .ok (scan, none)
  | letter :: rest =>
    match Switch.ofLetter? scan.level letter with
    | none => .error .usage
    | some switch =>
      if switch.takesValue then
        match rest with
        | [] => .ok (scan, some switch)
        | '=' :: value => (scan.setValue switch (String.ofList value)).map (·, none)
        | value => (scan.setValue switch (String.ofList value)).map (·, none)
      else
        match scan.setFlag switch with
        | .ok scan => readLetters scan rest
        | .error stop => .error stop

def readLong (scan : Scan) (text : List Char) : Except Stop (Scan × Option Switch) :=
  let name := text.takeWhile (· ≠ '=')
  match Switch.ofLongName? scan.level (String.ofList name), text.dropWhile (· ≠ '=') with
  | none, _ => .error .usage
  | some switch, [] =>
    if switch.takesValue then .ok (scan, some switch) else (scan.setFlag switch).map (·, none)
  | some switch, _ :: value =>
    if switch.takesValue then (scan.setValue switch (String.ofList value)).map (·, none)
    else .error .usage

/-- Whether help can be given on some words, starting at a place: they lead to a command,
or to the word for help where more words may follow. -/
def isTopic (level : Level) : List String → Bool
  | [] => true
  | word :: rest =>
    match level.words.lookup word with
    | some level => isTopic level rest
    | none => word = "help" && rest.isEmpty && !level.words.isEmpty

/-- Reads a word: the name of a command, or a request for help on one. -/
def readWord (scan : Scan) (word : String) (rest : List String) : Except Stop Scan :=
  match scan.level.words.lookup word with
  | some level => .ok (scan.goTo level)
  | none =>
    if word = "help" ∧ scan.level.words ≠ [] then
      .error (if isTopic scan.level rest then .help else .usage)
    else .error .usage

/-- Reads one argument, knowing those after it. An option settles the one that waits; a
word leaves it waiting. -/
def readArgument (scan : Scan) (argument : String) (rest : List String) :
    Except Stop (Scan × Option Switch) :=
  match argument.toList with
  | ['-', '-'] => if rest.isEmpty then .ok (scan, none) else .error .usage
  | '-' :: '-' :: text => scan.settle.bind fun scan => scan.readLong text
  | '-' :: letter :: letters => scan.settle.bind fun scan => scan.readLetters (letter :: letters)
  | _ => (scan.readWord argument rest).map (·, none)

def readAll (scan : Scan) : List String → Except Stop Scan
  | [] => .ok scan
  | [argument] =>
    match scan.readArgument argument [] with
    | .ok (scan, none) => .ok scan
    | .ok (_, some _) => .error .usage
    | .error stop => .error stop
  | argument :: value :: rest =>
    match scan.readArgument argument (value :: rest) with
    | .error stop => .error stop
    | .ok (scan, none) => readAll scan (value :: rest)
    | .ok (scan, some switch) =>
      if isSwitch value then .error .usage
      else readAll { scan with given := { scan.given with waiting := some (switch, value) } } rest

end Scan

/-! ### Arguments -/

/-- What is to be shown of a deployment: its document, its records or its counts. -/
inductive View where
  | synth (out : Option String)
  | records (zone : Option String)
  | check
  deriving DecidableEq

inductive Command where
  | view (view : View)
  | configPath
  deriving DecidableEq

structure Arguments where
  deployment : Option String
  format : OutputFormat
  verbose : Bool
  noColor : Bool
  command : Command
  deriving DecidableEq

namespace Arguments

/-- The value given furthest to the right. -/
def last? {α : Type} (values : List (Option α)) : Option α := (values.filterMap id).getLast?

/-- The command of a place, with what was given there. -/
def command? (level : Level) (given : Given) : Option Command :=
  match level with
  | .synth => some (.view (.synth given.out))
  | .records => some (.view (.records given.zone))
  | .check => some (.view .check)
  | .configPath => some .configPath
  | .top | .config => none

/-- The arguments that some words write. The variable stands in for the deployment file
at every place that gives none, and must not be empty there. -/
def parse (inherited : Option String) (words : List String) : Except Stop Arguments := do
  let scan ← Scan.readAll {} words
  let given ← scan.given.settle
  let before ← scan.before.mapM Given.settle
  let places := before ++ [given]
  match command? scan.level given with
  | none => .error .usage
  | some command =>
    if inherited = some "" ∧ places.any (·.deployment.isNone) then .error .usage
    else
      .ok
        { deployment := (last? (places.map Given.deployment)).or inherited
          format := (last? (places.map Given.output)).getD .pretty
          verbose := places.any Given.verbose
          noColor := places.any Given.noColor
          command }

end Arguments

end ZoneGraph.Cli
