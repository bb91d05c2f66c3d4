import ZoneGraph.Form
import ZoneGraph.Record

/-! The forms of records. A record's options share the record's own table. -/
namespace ZoneGraph

namespace RecordType

/-- A type by its name in upper case. -/
def reading : Reading RecordType :=
  .case fun name => all.find? fun type => type.name = name

def toData (type : RecordType) : Data := .text type.name

end RecordType

namespace Values

/-- One text or a list of texts; an expression is not told from a text. -/
def reading : Reading Values
  | _, .text value => some (.single value)
  | dialect, data => (Reading.text.list dialect data).map .list

end Values

namespace GeoScope

def reading : Reading GeoScope := .case ofName?

end GeoScope

namespace GeoLocation

def toData (location : GeoLocation) : Data :=
  .table [("scope", .text location.scope.name), ("value", .text location.value)]

def reading : Reading GeoLocation := fun dialect data => do
  let parts ← Parts.read ["scope", "value"] dialect data
  let scope ← parts.required "scope" GeoScope.reading
  let value ← parts.required "value" .text
  pure { scope, value }

end GeoLocation

namespace RoutingSelector

def toData (routing : RoutingSelector) : Data :=
  .table [("geolocation", routing.geolocation.toData), ("set_identifier", .text routing.setIdentifier)]

def reading : Reading RoutingSelector := fun dialect data => do
  let parts ← Parts.read ["set_identifier", "geolocation"] dialect data
  let setIdentifier ← parts.required "set_identifier" .text
  let geolocation ← parts.required "geolocation" GeoLocation.reading
  pure { setIdentifier, geolocation }

end RoutingSelector

namespace RecordOptions

def partNames : List String := ["ttl", "routing"]

def ofWord (word : UInt32) : Data := .int word.toNat

/-- Both options, nothing where one is not given. -/
def toFields (options : RecordOptions) : List (String × Data) :=
  [("routing", Data.ofOption RoutingSelector.toData options.routing),
    ("ttl", Data.ofOption ofWord options.ttl)]

def toData (options : RecordOptions) : Data := .table options.toFields

def ofParts (parts : Parts) : Option RecordOptions := do
  let ttl ← parts.withDefault "ttl" none Reading.word.option
  let routing ← parts.withDefault "routing" none RoutingSelector.reading.option
  pure { ttl, routing }

/-- Both options, either of which may be missing. -/
def reading : Reading RecordOptions := fun dialect data =>
  (Parts.read partNames dialect data).bind ofParts

end RecordOptions

namespace Record

def partNames : List String := ["name", "type", "values"]

def toData (record : Record) : Data :=
  .table (("name", .text record.name) :: record.options.toFields ++
    [("type", record.type.toData), ("values", record.values.toData)])

/-- One table for the record and its options. What is not a part of the record itself is
set aside, so it must be whole even where it is passed over. -/
def reading : Reading Record
  | dialect, .table fields => do
    let own ← Parts.ofFields partNames dialect fields
    let name ← own.required "name" .text
    let type ← own.required "type" RecordType.reading
    let values ← own.required "values" Values.reading
    let others := fields.filter fun field => field.1 ∉ partNames
    guard (Data.fieldsAreWhole others)
    let options ← (Parts.ofFields RecordOptions.partNames .setAside others).bind RecordOptions.ofParts
    pure { name, type, values, options }
  | _, _ => none

end Record

end ZoneGraph
