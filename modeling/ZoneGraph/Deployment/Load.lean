import ZoneGraph.Deployment.Build
import ZoneGraph.Files.Tree
import ZoneGraph.Form.Deployment
import ZoneGraph.Json.Reader
import ZoneGraph.Toml.Reader

/-! Loading a deployment: its own file in TOML, and a list of servers in JSON that the
file may name. The list's path is looked at from the directory of the file. -/
namespace ZoneGraph

/-- A deployment file and the directory its paths are looked at from. -/
structure Deployment where
  file : DeploymentFile
  baseDir : String := ""

namespace Deployment

variable {m : Type → Type} [Monad m]

def ofText (text : String) : Except Fault Deployment :=
  match (Toml.read? text).bind (DeploymentFile.reading .toml) with
  | some file => .ok { file }
  | none => .error (.deployment .malformed)

def load (files : FileAccess m) (path : String) : m (Except Fault Deployment) := do
  match ← files.read path with
  | .error fault => pure (.error (.file fault))
  | .ok text =>
    pure ((ofText text).map fun deployment => { deployment with baseDir := Path.parent path })

def serversOfText (text : String) : Except Fault (List Server) :=
  match (Json.read? text).bind (Server.reading.list .json) with
  | some servers => .ok servers
  | none => .error .json

/-- The servers of the file itself and then those of the list it names. -/
def servers (files : FileAccess m) (deployment : Deployment) : m (Except Fault (List Server)) := do
  match deployment.file.serversFile with
  | none => pure (.ok deployment.file.servers)
  | some path =>
    let path := Path.join deployment.baseDir path
    match ← files.read path with
    | .error fault => pure (.error (.deployment (.unreadableServers path fault)))
    | .ok text => pure ((serversOfText text).map (deployment.file.servers ++ ·))

def build (files : FileAccess m) (deployment : Deployment) : m (Except Fault Stack) := do
  match ← deployment.servers files with
  | .error fault => pure (.error fault)
  | .ok servers => pure (deployment.file.build servers)

end Deployment

end ZoneGraph
