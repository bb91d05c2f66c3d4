import ZoneGraph.Call
import ZoneGraph.Resource.Collection

/-! Zones: a name and its defaults on one of two backends, a provider, and the resources
declared so far. A LiveDNS zone keeps names relative, quotes texts and answers alike for
everybody; a Route53 zone qualifies names and can answer by place. -/
namespace ZoneGraph

/-! ### Backends -/

/-- What hosts a zone. -/
inductive Backend where
  | livedns
  | route53
  deriving DecidableEq

namespace Backend

def all : List Backend := [.livedns, .route53]

def name : Backend → String
  | .livedns => "livedns"
  | .route53 => "route53"

def pathStart : Backend → String
  | .livedns => "G"
  | .route53 => "R53"

/-- The plugin that manages a backend's resources. -/
def providerKind : Backend → ProviderKind
  | .livedns => .gandi
  | .route53 => .aws

def answering : Backend → Answering
  | .livedns => .alike
  | .route53 => .byPlace

end Backend

/-! ### State -/

/-- A zone and what it has declared. The lookup is the reference to its nameservers once
they were asked for on LiveDNS; the key is there once the zone is signed. -/
structure Zone where
  backend : Backend
  origin : Origin
  provider : Provider
  resources : ResourceSet
  lookup : Option AttrRef := none
  key : Option SigningKey := none
  managed : provider.kind = backend.providerKind

namespace Zone

/-- The name of the zone, without a dot at its end. -/
def name (zone : Zone) : String := zone.origin.name

/-- The path of the zone, below which its resources lie. -/
def path (zone : Zone) : String := zone.backend.pathStart ++ "-" ++ zone.name

/-- The path of a resource of the zone. -/
def pathOf (id : String) (zone : Zone) : String := zone.path ++ "/" ++ id

/-- A resource of the zone without attributes, managed by the zone's own provider. -/
def resource (kind : ResourceKind) (id : String) (zone : Zone) : Resource where
  kind := kind
  path := zone.pathOf id
  provider := zone.provider.reference
  zone := some zone.name

/-- The hosted zone itself, which a Route53 zone declares when it is opened. -/
def hostedZone (zone : Zone) : Resource :=
  (zone.resource .hostedZone "zone").setText "name" zone.name

def zoneId (zone : Zone) : AttrRef := zone.hostedZone.reference "zone_id"

def arn (zone : Zone) : AttrRef := zone.hostedZone.reference "arn"

def emit (resource : Resource) : Step Zone Unit :=
  Step.within Zone.resources (fun resources zone => { zone with resources }) (ResourceSet.push resource)

def take : Step Zone (List Resource) :=
  Step.within Zone.resources (fun resources zone => { zone with resources }) ResourceSet.take

def records (zone : Zone) : List Published := zone.resources.records

/-- Opens a zone: its name must be a name with two labels and its provider of the plugin
for the backend. -/
def «open» (backend : Backend) (origin : Origin) (provider : Provider) : Except Fault Zone :=
  match DomainName.parseZone origin.name with
  | .error fault => .error (.invalidZoneName origin.name fault)
  | .ok _ =>
    if managed : provider.kind = backend.providerKind then
      let zone : Zone := { backend, origin, provider, resources := .empty, managed }
      match backend with
      | .livedns => .ok zone
      | .route53 => (Step.after (emit zone.hostedZone) zone |> .ok)
    else .error (.providerMismatch backend.providerKind provider.reference)

/-! ### Records -/

def qualify (name : String) (zone : Zone) : String :=
  if name = apex then zone.name else name ++ "." ++ zone.name

def inQuotes (value : String) : String := "\"" ++ value ++ "\""

def livednsValues (record : Record) : Values :=
  if record.type = .txt then record.values.map inQuotes else record.values

/-- The time to live of a record in the zone. -/
def ttlOf (record : Record) (zone : Zone) : Data :=
  .int (record.ttlOr zone.origin.defaults.defaultTtl).toNat

def livednsRecord (record : Record) (zone : Zone) : Resource :=
  (zone.resource .livednsRecord record.path)
    |>.setText "zone" zone.name
    |>.setText "type" record.type.name
    |>.setText "name" record.name
    |>.set "values" (livednsValues record).toData
    |>.set "ttl" (zone.ttlOf record)

/-- The policy that makes a record answer one place. -/
def routingPolicy (location : GeoLocation) : Data :=
  .list [.table [(location.scope.name, .text location.value)]]

def addRouting (resource : Resource) : Option RoutingSelector → Resource
  | none => resource
  | some routing =>
    resource
      |>.setText "set_identifier" routing.setIdentifier
      |>.set "geolocation_routing_policy" (routingPolicy routing.geolocation)

def route53Record (record : Record) (zone : Zone) : Resource :=
  addRouting
    ((zone.resource .route53Record record.path)
      |>.setText "zone_id" zone.zoneId.interpolate
      |>.setText "type" record.type.name
      |>.setText "name" (zone.qualify record.name)
      |>.set "records" record.values.toData
      |>.set "ttl" (zone.ttlOf record))
    record.options.routing

/-- Declares a record. LiveDNS refuses one that is routed. -/
def declare (record : Record) : Step Zone Unit := fun zone =>
  match zone.backend with
  | .livedns =>
    if record.options.routing.isSome then .error (.unsupportedRouting zone.name) zone
    else emit (zone.livednsRecord record) zone
  | .route53 => emit (zone.route53Record record) zone

instance : RecordHost Zone where
  origin := Zone.origin
  answering zone := zone.backend.answering
  declare := declare

end Zone

end ZoneGraph
