import ZoneGraph.Cli.Run

/-! The program: the command line run on real files, variables and streams. -/
namespace ZoneGraph.Cli

/-- Why a file could not be read or written, as the system says. -/
def faultOf : IO.Error → FileFault
  | .noFileOrDirectory .. => .notFound
  | .inappropriateType .. => .isDirectory
  | .noSuchThing .. => .notFound
  | error => .other (toString error)

def textOf (bytes : ByteArray) : Except FileFault String :=
  match String.fromUTF8? bytes with
  | some text => .ok text
  | none => .error .notText

def systemFiles : FileAccess IO where
  read path := do
    match ← (IO.FS.readBinFile path).toBaseIO with
    | .ok bytes => pure (textOf bytes)
    | .error error => pure (.error (faultOf error))
  write path text := do
    match ← (IO.FS.writeFile path text).toBaseIO with
    | .ok _ => pure (.ok ())
    | .error error => pure (.error (faultOf error))

def variableNames : List String :=
  ["ZONEKIT_DEPLOYMENT", "HOME", "XDG_CONFIG_HOME", "CLICOLOR", "CLICOLOR_FORCE", "NO_COLOR"]

def systemEnvironment : IO Environment := do
  let vars ← variableNames.filterMapM fun name => do
    pure ((← IO.getEnv name).map (name, ·))
  pure { vars, terminal := ← (← IO.getStdout).isTty }

end ZoneGraph.Cli

/-- Runs the program and gives its exit code. -/
def main (words : List String) : IO UInt32 := do
  let outcome ← ZoneGraph.Cli.run ZoneGraph.Cli.systemFiles (← ZoneGraph.Cli.systemEnvironment) words
  (← IO.getStdout).putStr outcome.stdout
  (← IO.getStderr).putStr outcome.stderr
  pure outcome.code
