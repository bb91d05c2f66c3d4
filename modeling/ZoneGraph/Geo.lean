/-! Geolocation predicates: a field of the client's place and the code it must have.
A predicate has a key, which servers carry as a tag, and a set identifier, which tells
apart records of one name and type. -/
namespace ZoneGraph

/-- The field of the client's place that is looked at. -/
inductive GeoScope where
  | continent
  | country
  | subdivision
  deriving DecidableEq

namespace GeoScope

/-- Every scope, in the order tags are matched. -/
def all : List GeoScope := [.continent, .country, .subdivision]

/-- The name of the scope, as tags begin. -/
def name : GeoScope → String
  | .continent => "continent"
  | .country => "country"
  | .subdivision => "subdivision"

def ofName? (text : String) : Option GeoScope := all.find? fun scope => scope.name = text

@[simp] theorem ofName?_name (scope : GeoScope) : ofName? scope.name = some scope := by
  cases scope <;> decide

theorem name_eq_of_ofName? {text : String} {scope : GeoScope} (h : ofName? text = some scope) :
    scope.name = text := by
  simpa using List.find?_some h

end GeoScope

/-- A predicate on the client's place. -/
structure GeoLocation where
  scope : GeoScope
  value : String
  deriving DecidableEq

namespace GeoLocation

/-- The predicate that answers when no other does. -/
def defaultAnswer : GeoLocation := ⟨.country, "*"⟩

def key (location : GeoLocation) : String := location.scope.name ++ ":" ++ location.value

/-- The identifier of records answering the predicate. -/
def setIdentifier (location : GeoLocation) : String :=
  "geo-" ++ location.scope.name ++ "-" ++ location.value

end GeoLocation

/-- What makes a record answer only some clients. -/
structure RoutingSelector where
  setIdentifier : String
  geolocation : GeoLocation
  deriving DecidableEq

/-- The selector for a predicate, under the predicate's own identifier. -/
def RoutingSelector.ofLocation (location : GeoLocation) : RoutingSelector :=
  ⟨location.setIdentifier, location⟩

end ZoneGraph
