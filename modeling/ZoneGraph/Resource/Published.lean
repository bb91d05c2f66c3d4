import ZoneGraph.RecordType
import ZoneGraph.Resource

/-! Records as they were sent to a backend, read back from resources. Both backends
give the same view. -/
namespace ZoneGraph

/-- A record as its backend has it. -/
structure Published where
  zone : String
  name : String
  type : RecordType
  values : List String
  ttl : UInt32
  setIdentifier : Option String
  deriving DecidableEq

namespace Published

/-- The attribute that holds the values of a record. -/
def valuesKey? : ResourceKind → Option String
  | .livednsRecord => some "values"
  | .route53Record => some "records"
  | _ => none

/-- The texts of a list, or an expression as its only value. -/
def values? : Data → Option (List String)
  | .list items => some (items.filterMap Data.text?)
  | .text expression => some [expression]
  | _ => none

/-- The record that a resource declares, if it is a record with all its parts. -/
def ofResource? (resource : Resource) : Option Published := do
  let valuesKey ← valuesKey? resource.kind
  let values ← values? (← Keyed.find? valuesKey resource.attributes)
  let zone ← resource.zone
  let name ← resource.text? "name"
  let type ← RecordType.ofName? (← resource.text? "type")
  let ttl ← (← Keyed.find? "ttl" resource.attributes).word?
  pure { zone, name, type, values, ttl, setIdentifier := resource.text? "set_identifier" }

end Published

end ZoneGraph
