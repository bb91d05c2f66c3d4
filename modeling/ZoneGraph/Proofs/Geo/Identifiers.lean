import ZoneGraph.Geo
import Mathlib.Data.List.Basic

/-! Set identifiers tell places apart: two places with one identifier are the same. -/
namespace ZoneGraph.GeoLocation

theorem setIdentifier_toList (location : GeoLocation) :
    location.setIdentifier.toList =
      "geo-".toList ++ (location.scope.name.toList ++ ('-' :: location.value.toList)) := by
  simp [setIdentifier, String.toList_append]

/-- No name of a scope starts another, so the identifier splits in one way only. -/
theorem setIdentifier_injective {location other : GeoLocation}
    (h : location.setIdentifier = other.setIdentifier) : location = other := by
  obtain ⟨scope, value⟩ := location
  obtain ⟨scope', value'⟩ := other
  have hlist := congrArg String.toList h
  rw [setIdentifier_toList, setIdentifier_toList, List.append_cancel_left_eq] at hlist
  cases scope <;> cases scope' <;> simp [GeoScope.name] at hlist ⊢ <;> exact String.toList_inj.mp hlist

end ZoneGraph.GeoLocation
