import ZoneGraph.Fault
import ZoneGraph.Geo
import ZoneGraph.Server

/-! Partition of servers by the places their tags name. A server lies in the bucket of
every place it is tagged with; the bucket that answers everybody else comes first and
holds all servers. -/
namespace ZoneGraph

/-! ### Tags -/

/-- The place a tag names, if its part before the first colon is a scope. A scope
without a value is refused in the name of the server that carries the tag. -/
def GeoLocation.ofTag (server tag : String) : Except Fault (Option GeoLocation) :=
  let text := tag.toList
  match GeoScope.ofName? (String.ofList (text.takeWhile (· ≠ ':'))) with
  | none => .ok none
  | some scope =>
    match text.dropWhile (· ≠ ':') with
    | _ :: c :: value => .ok (some ⟨scope, String.ofList (c :: value)⟩)
    | _ => .error (.malformedGeoTag server tag)

/-- The places that some tags of a server name, in order. -/
def placesOfTags (server : String) : List String → Except Fault (List GeoLocation)
  | [] => .ok []
  | tag :: rest => do
    let place ← GeoLocation.ofTag server tag
    let places ← placesOfTags server rest
    pure (place.toList ++ places)

/-- The places that a server is tagged with, in order. -/
def Server.places (server : Server) : Except Fault (List GeoLocation) :=
  placesOfTags server.name server.tags

/-! ### Buckets -/

/-- The servers that answer clients of one place. -/
structure GeoBucket where
  location : GeoLocation
  servers : List ServerRef
  deriving DecidableEq

namespace GeoBucket

def add (ref : ServerRef) (bucket : GeoBucket) : GeoBucket :=
  if bucket.servers.any (·.place = ref.place) then bucket
  else { bucket with servers := bucket.servers ++ [ref] }

/-- Adds a server to the bucket of a place, or to a new one at the end. -/
def addTo (location : GeoLocation) (ref : ServerRef) : List GeoBucket → List GeoBucket
  | [] => [⟨location, [ref]⟩]
  | bucket :: rest =>
    if bucket.location = location then bucket.add ref :: rest else bucket :: addTo location ref rest

/-- Every tag that names a place, with the server that carries it, over servers and then
tags. -/
def taggings : List ServerRef → Except Fault (List (GeoLocation × ServerRef))
  | [] => .ok []
  | ref :: rest => do
    let places ← ref.server.places
    let more ← taggings rest
    pure (places.map (·, ref) ++ more)

/-- The buckets of some servers, in the order their places are first named, after the
one that holds every server. -/
def partition (servers : List ServerRef) : Except Fault (List GeoBucket) := do
  let taggings ← taggings servers
  pure (taggings.foldl (fun buckets tagging => addTo tagging.1 tagging.2 buckets)
    [⟨.defaultAnswer, servers⟩])

end GeoBucket

end ZoneGraph
