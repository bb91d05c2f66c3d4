import ZoneGraph.Deployment.File
import ZoneGraph.FanOut

/-! What a group of a deployment asks of its zones: a list of calls, made in order. Some
entries of the file stand for no call and refuse at their turn. -/
namespace ZoneGraph

namespace RecordSpec

/-- The calls of an explicit record: a record with its type, or the addresses of the
servers with a tag. -/
def calls (servers : List Server) (spec : RecordSpec) : List (Except Fault Call) :=
  let options : RecordOptions := { ttl := spec.ttl }
  match spec.serversTag, spec.type with
  | some tag, none => (Call.addresses spec.name (Server.tagged tag servers) options).map .ok
  | none, some type => [.ok (.record ⟨spec.name, type, spec.values, options⟩)]
  | _, _ => [.error (.deployment (.ambiguousRecord spec.name))]

end RecordSpec

namespace DelegationSpec

def calls (summaries : Keyed ZoneSummary) (spec : DelegationSpec) : List (Except Fault Call) :=
  match Keyed.find? spec.zone summaries with
  | some summary => (Call.delegate spec.label summary).map .ok
  | none => [.error (.deployment (.undeclaredChild spec.label spec.zone))]

end DelegationSpec

namespace GroupSpec

def bundles (servers : List Server) (group : GroupSpec) : List Call :=
  group.www.map (fun name => .webHosting name servers {}) ++
    group.mail.toList.map .mailHosting ++
    (if group.mailServices then [.mailServices] else []) ++
    (if group.servers then [.serverNames servers {}] else [])

/-- Everything a group asks of each of its zones, in order. -/
def calls (servers : List Server) (summaries : Keyed ZoneSummary) (group : GroupSpec) :
    List (Except Fault Call) :=
  (group.bundles servers).map .ok ++ group.records.flatMap (RecordSpec.calls servers) ++
    group.delegations.flatMap (DelegationSpec.calls summaries)

end GroupSpec

/-- Makes a call on every zone, or refuses where an entry stands for none. -/
def FanOut.ask {ζ : Type} [RecordHost ζ] : Except Fault Call → Step (FanOut ζ) Unit
  | .ok call => FanOut.perform call
  | .error fault => throw fault

end ZoneGraph
