import ZoneGraph.Form.Record
import ZoneGraph.Resource.Published

/-! The forms in which resources and published records are shown. -/
namespace ZoneGraph

namespace Resource

def toData (resource : Resource) : Data :=
  .table [("address", .text resource.address), ("attributes", .table resource.attributes),
    ("depends_on", Data.texts resource.dependsOn), ("kind", .text resource.kind.name),
    ("path", .text resource.path), ("provider", .text resource.provider),
    ("zone", Data.ofOption .text resource.zone)]

end Resource

namespace Published

/-- The parts in the order of listings; a record that is not routed has no set
identifier. -/
def toData (record : Published) : Data :=
  .table ([("zone", .text record.zone), ("name", .text record.name), ("type", record.type.toData),
    ("values", Data.texts record.values), ("ttl", .int record.ttl.toNat)] ++
    record.setIdentifier.toList.map fun setIdentifier => ("set_identifier", .text setIdentifier))

end Published

end ZoneGraph
