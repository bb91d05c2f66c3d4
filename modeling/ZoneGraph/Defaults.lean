/-! Settings shared by every record of a zone. Most records change rarely and live for
a day; the addresses of web names move with the servers and live for two hours. -/
namespace ZoneGraph

/-- The time to live of records that set none. -/
def dayTtl : UInt32 := 86400

/-- The time to live of web addresses. -/
def webTtl : UInt32 := 7200

/-- Settings of a zone. Challenges for certificates are answered below the ACME root. -/
structure ZoneDefaults where
  defaultTtl : UInt32 := dayTtl
  webTtl : UInt32 := ZoneGraph.webTtl
  acmeRoot : String
  deriving DecidableEq

def ZoneDefaults.acmeZone (defaults : ZoneDefaults) : String := "acme." ++ defaults.acmeRoot

/-- A zone name with its settings: all that a bundle of records depends on. -/
structure Origin where
  name : String
  defaults : ZoneDefaults
  deriving DecidableEq

end ZoneGraph
