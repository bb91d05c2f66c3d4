import ZoneGraph.Bundle
import ZoneGraph.Geo.Partition
import ZoneGraph.Reference
import ZoneGraph.Step

/-! Calls: what can be asked of a zone. A call stands for a list of records, its plan,
which is fixed by the zone's name, its defaults and the way it answers for web names.
Performing a call declares the records of its plan up to the first one refused. -/
namespace ZoneGraph

/-- How the addresses of a web name are answered: alike for everybody, or by the place
of the client. -/
inductive Answering where
  | alike
  | byPlace
  deriving DecidableEq

/-- Something that can be asked of a zone. -/
inductive Call where
  | record (record : Record)
  | webAddresses (name : String) (servers : List ServerRef) (options : RecordOptions)
  | mailHosting (subdomains : List String)
  | mailServices
  | webHosting (name : String) (servers : List Server) (options : RecordOptions)
  | serverNames (servers : List Server) (options : RecordOptions)

namespace Call

/-! ### Calls made of record calls -/

/-- Addresses of some servers, asked record by record. -/
def addresses (name : String) (servers : List Server) (options : RecordOptions) : List Call :=
  (Bundle.addresses name servers options).map .record

/-- The nameservers of a child zone, and its key once it is signed, under a label. -/
def delegate (label : String) (child : ZoneSummary) : List Call :=
  .record ⟨label, .ns, child.nameservers.fqdnValues, {}⟩ ::
    (child.dsRecord.map fun ds => .record ⟨label, .ds, .single ds, {}⟩).toList

/-! ### Plans -/

/-- The addresses of a web name: one record a family, or one for each place. -/
def planWebAddresses (name : String) (servers : List ServerRef) (options : RecordOptions) :
    Answering → Except Fault (List Record)
  | .alike => .ok (Bundle.addresses name (servers.map (·.server)) options)
  | .byPlace => do
    let buckets ← GeoBucket.partition servers
    pure (buckets.flatMap fun bucket =>
      Bundle.addresses name (bucket.servers.map (·.server)) (options.routedTo bucket.location))

def webServers (servers : List Server) : List ServerRef :=
  (ServerRef.all servers).filter (·.server.servesWeb)

/-- The records that a call stands for. -/
def plan (answering : Answering) (origin : Origin) : Call → Except Fault (List Record)
  | .record wanted => .ok [wanted]
  | .webAddresses name servers options => planWebAddresses name servers options answering
  | .mailHosting subdomains => .ok (Bundle.mailHosting origin.name subdomains)
  | .mailServices => .ok Bundle.mailServices
  | .webHosting name servers options => do
    let records ← planWebAddresses name (webServers servers)
      (options.withTtl origin.defaults.webTtl) answering
    pure (records ++ Bundle.certificates origin name)
  | .serverNames servers options =>
    match DomainName.parseZone origin.name with
    | .ok zone => .ok (Bundle.serverNames zone servers options)
    | .error fault => .error (.invalidZoneName origin.name fault)

end Call

/-- A thing on which records can be declared one by one. Its name, its defaults and its
way of answering do not depend on what was declared. -/
class RecordHost (ζ : Type) where
  origin : ζ → Origin
  answering : ζ → Answering
  declare : Record → Step ζ Unit

/-- Declares the records of a call's plan, up to the first one refused. -/
def Call.perform {ζ : Type} [RecordHost ζ] (call : Call) : Step ζ Unit := do
  let host ← get
  let records ← Step.lift (call.plan (RecordHost.answering host) (RecordHost.origin host))
  Step.each RecordHost.declare records

end ZoneGraph
