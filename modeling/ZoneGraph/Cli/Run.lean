import ZoneGraph.Cli.Arguments
import ZoneGraph.Cli.Report
import ZoneGraph.Deployment.Load
import ZoneGraph.Yaml.Writer

/-! The commands. A run reads its deployment through the file access it is given and ends
with an exit code and what it prints. -/
namespace ZoneGraph.Cli

/-! ### Surroundings -/

/-- What surrounds a run: variables, the home directory of the account, and whether a
person reads the output. -/
structure Environment where
  vars : List (String × String)
  accountHome : Option String := none
  terminal : Bool := false

namespace Environment

def get? (name : String) (environment : Environment) : Option String := environment.vars.lookup name

/-- Whether colours are wanted: they can be forced or refused, and else are for people. -/
def wantsColors (environment : Environment) : Bool :=
  if (environment.get? "CLICOLOR_FORCE").any (· ≠ "0") then true
  else if (environment.get? "NO_COLOR").isSome then false
  else environment.terminal && !(environment.get? "CLICOLOR").any (· = "0")

def home? (environment : Environment) : Option String :=
  match environment.get? "HOME" with
  | some home => if home.isEmpty then environment.accountHome else some home
  | none => environment.accountHome

/-- The directory of configuration files, which lies in the home directory unless a
variable names another one by an absolute path. -/
def configDir? (environment : Environment) : Option String :=
  environment.home?.map fun home =>
    match environment.get? "XDG_CONFIG_HOME" with
    | some path => if Path.isAbsolute path then path else Path.join home ".config"
    | none => Path.join home ".config"

/-- The deployment file of a run that names none. -/
def defaultDeployment? (environment : Environment) : Option String :=
  environment.configDir?.map fun dir => Path.join (Path.join dir "zonekit") "deployment.toml"

end Environment

/-! ### Failures -/

/-- Why a run fails, with what lies behind it. -/
structure Failure where
  message : String
  causes : List String := []

namespace Failure

/-- The failure of a step, behind which a fault lies. -/
def ofFault (message : String) (fault : Fault) : Failure := ⟨message, fault.message :: fault.cause?.toList⟩

/-- The further lines of a cause, moved to the right. -/
def continueLines (width : Nat) : List Char → List Char
  | [] => []
  | c :: rest =>
    if c = '\n' then '\n' :: List.replicate width ' ' ++ continueLines width rest
    else c :: continueLines width rest

/-- One cause below the others, with its number if there are several. -/
def causeText (number : Option Nat) (cause : String) : String :=
  match number with
  | some n => "\n" ++ padLeft 5 (toString n) ++ ": " ++ String.ofList (continueLines 7 cause.toList)
  | none => "\n    " ++ String.ofList (continueLines 4 cause.toList)

def causesText : List String → String
  | [] => ""
  | [cause] => "\n\nCaused by:" ++ causeText none cause
  | causes => "\n\nCaused by:" ++ String.join (causes.zipIdx.map fun entry => causeText (some entry.2) entry.1)

def text (failure : Failure) : String := "Error: " ++ failure.message ++ causesText failure.causes ++ "\n"

end Failure

/-! ### Commands -/

structure Outcome where
  code : UInt32
  stdout : String := ""
  stderr : String := ""
  deriving DecidableEq

namespace Outcome

def print (stdout : String) : Outcome := { code := 0, stdout }

def failed (failure : Failure) : Outcome := { code := 1, stderr := failure.text }

def ofStop : Stop → Outcome
  | .usage => { code := 2 }
  | .help => { code := 0 }
  | .version program => print (program ++ " 0.3.0\n")

end Outcome

/-- A document for programs, or else a listing. -/
def printAs (format : OutputFormat) (data : Data) (listing : String) : Outcome :=
  .print (match format with
    | .pretty => listing
    | .json => Json.pretty data ++ "\n"
    | .yaml => Yaml.document data)

def printRecords (format : OutputFormat) (colors : Bool) (zone : Option String) (stack : Stack) : Outcome :=
  match recordsOf stack zone with
  | none => .failed { message := "Unknown zone: " ++ zone.getD "" }
  | some records => printAs format (.list (records.map Published.toData)) (recordListing colors records)

def printCounts (format : OutputFormat) (colors : Bool) (stack : Stack) : Outcome :=
  let count := countStack stack
  printAs format count.toData (countListing colors count)

def printDocument (format : OutputFormat) (stack : Stack) : Outcome :=
  printAs format stack.synth (Json.pretty stack.synth ++ "\n")

section

variable {m : Type → Type} [Monad m]

def loadStack (files : FileAccess m) (path : String) : m (Except Failure Stack) := do
  match ← Deployment.load files path with
  | .error fault => pure (.error (.ofFault ("Failed to load deployment " ++ path) fault))
  | .ok deployment =>
    match ← deployment.build files with
    | .error fault => pure (.error (.ofFault "Failed to build deployment" fault))
    | .ok stack => pure (.ok stack)

/-- Writes the document of a stack to a file, and says so where people read. -/
def writeDocument (files : FileAccess m) (arguments : Arguments) (colors : Bool) (out : String)
    (stack : Stack) : m Outcome := do
  match ← files.write out (Json.pretty stack.synth ++ "\n") with
  | .error fault => pure (.failed ⟨"Failed to write " ++ out, [fault.message]⟩)
  | .ok _ =>
    if arguments.verbose ∨ arguments.format = .pretty then
      pure { code := 0, stderr := painted colors .success 0 "Synthesized:" ++ " " ++
        toString stack.resources.size ++ " resources written to " ++ painted colors .name 0 out ++ "\n" }
    else pure { code := 0 }

/-- Shows what is asked of a stack. -/
def present (files : FileAccess m) (arguments : Arguments) (colors : Bool) (stack : Stack) : View → m Outcome
  | .synth (some out) => writeDocument files arguments colors out stack
  | .synth none => pure (printDocument arguments.format stack)
  | .records zone => pure (printRecords arguments.format colors zone stack)
  | .check => pure (printCounts arguments.format colors stack)

def noConfigDir : Failure := { message := "Could not determine config directory" }

/-- Runs a command. -/
def execute (files : FileAccess m) (environment : Environment) (arguments : Arguments) : m Outcome := do
  match arguments.command with
  | .configPath =>
    match environment.defaultDeployment? with
    | some path => pure (.print (path ++ "\n"))
    | none => pure (.failed noConfigDir)
  | .view view =>
    match arguments.deployment.or environment.defaultDeployment? with
    | none => pure (.failed noConfigDir)
    | some path =>
      match ← loadStack files path with
      | .error failure => pure (.failed failure)
      | .ok stack => present files arguments (environment.wantsColors && !arguments.noColor) stack view

/-- Runs the program on its words. -/
def run (files : FileAccess m) (environment : Environment) (words : List String) : m Outcome :=
  match Arguments.parse (environment.get? "ZONEKIT_DEPLOYMENT") words with
  | .error stop => pure (.ofStop stop)
  | .ok arguments => execute files environment arguments

end

end ZoneGraph.Cli
