import ZoneGraph.RecordType
import ZoneGraph.Values
import ZoneGraph.Geo

/-! A record as it is asked for: a name relative to its zone, a type, values, and
options that the zone fills in when they are not given. -/
namespace ZoneGraph

/-- The relative name of the zone itself. -/
def apex : String := "@"

/-- A time to live and a routing selector, both optional. -/
structure RecordOptions where
  ttl : Option UInt32 := none
  routing : Option RoutingSelector := none
  deriving DecidableEq

namespace RecordOptions

/-- The same options with the given time to live. -/
def withTtl (ttl : UInt32) (options : RecordOptions) : RecordOptions := { options with ttl := some ttl }

/-- The same options, answering only the given predicate. -/
def routedTo (location : GeoLocation) (options : RecordOptions) : RecordOptions :=
  { options with routing := some (.ofLocation location) }

end RecordOptions

/-- A record to declare on a zone. -/
structure Record where
  name : String
  type : RecordType
  values : Values
  options : RecordOptions := {}
  deriving DecidableEq

namespace Record

def isApex (record : Record) : Bool := record.name = apex

/-- The record's own time to live, or else the given one. -/
def ttlOr (record : Record) (default : UInt32) : UInt32 := record.options.ttl.getD default

/-- The path of the record within its zone: its type, its set identifier if it is
routed, and its name. -/
def path (record : Record) : String :=
  match record.options.routing with
  | some routing => record.type.name ++ "-" ++ routing.setIdentifier ++ "-" ++ record.name
  | none => record.type.name ++ "-" ++ record.name

end Record

end ZoneGraph
