import ZoneGraph.Provider
import ZoneGraph.Record
import ZoneGraph.Server
import ZoneGraph.Defaults
import ZoneGraph.Zone

/-! The contents of a deployment file: providers, signing keys, servers, and groups of
zones that share their records. -/
namespace ZoneGraph

/-- A provider of a deployment; its name is the key it stands under. -/
structure ProviderSpec where
  kind : ProviderKind
  settings : Keyed String := []
  deriving DecidableEq

/-- A key kept outside, given an alias by a provider. -/
structure SigningKeySpec where
  provider : String
  keyAlias : String
  keyId : String
  deriving DecidableEq

/-- A registration, with the zone's key unless it is left out. -/
structure RegistrarSpec where
  provider : String
  dnssec : Bool := true
  deriving DecidableEq

/-- A zone of a group. The last three parts need a Route53 zone. -/
structure ZoneSpec where
  backend : Backend
  name : String
  provider : String
  sign : Bool := false
  registrar : Option RegistrarSpec := none
  signingKey : Option String := none
  allowUsers : List String := []
  outputZoneId : Option String := none
  deriving DecidableEq

/-- A record with its type and values, or the addresses of the servers with a tag. -/
structure RecordSpec where
  name : String
  type : Option RecordType := none
  values : Values := .empty
  serversTag : Option String := none
  ttl : Option UInt32 := none
  deriving DecidableEq

/-- A child zone under a label. -/
structure DelegationSpec where
  label : String
  zone : String
  deriving DecidableEq

/-- Zones, the first being the primary, and what is asked of all of them. -/
structure GroupSpec where
  zones : List ZoneSpec
  www : List String := []
  mail : Option (List String) := none
  mailServices : Bool := false
  servers : Bool := false
  records : List RecordSpec := []
  delegations : List DelegationSpec := []
  deriving DecidableEq

def defaultStackName : String := "zonekit"

/-- A deployment file. Providers and signing keys stand under their names. -/
structure DeploymentFile where
  name : String := defaultStackName
  defaults : ZoneDefaults
  providers : Keyed ProviderSpec := []
  signingKeys : Keyed SigningKeySpec := []
  servers : List Server := []
  serversFile : Option String := none
  groups : List GroupSpec := []
  deriving DecidableEq

end ZoneGraph
