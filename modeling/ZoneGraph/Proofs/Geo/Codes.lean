import ZoneGraph.Proofs.Geo.Identifiers
import ZoneGraph.Proofs.Geo.Tags
import ZoneGraph.Proofs.Zone.Paths

/-! The codes of a place. Its key is the tag that names it, and a tag is read as a place just
if it is the key of one that has a value. Its set identifier tells its records from those
for other places. Both begin with a scope, and since no scope holds the mark that follows
it or starts another scope, neither code can be read in two ways, whatever marks the value
holds. So records of one type and one name lie at one path just if they answer one place. -/
namespace ZoneGraph

theorem GeoScope.name_injective {scope other : GeoScope} (h : scope.name = other.name) : scope = other := by
  have hfound := congrArg GeoScope.ofName? h
  rw [GeoScope.ofName?_name, GeoScope.ofName?_name] at hfound
  exact Option.some.inj hfound

namespace GeoLocation

variable {server tag : String} {location other : GeoLocation}

/-- The first colon of a key ends the scope, so a key is that of one place. -/
theorem key_injective (h : location.key = other.key) : location = other := by
  have hlist := congrArg String.toList h
  rw [key_toList, key_toList,
    append_mark_inj location.scope.colon_notMem_name other.scope.colon_notMem_name] at hlist
  obtain ⟨hscope, hvalue⟩ := hlist
  obtain ⟨scope, value⟩ := location
  obtain ⟨scope', value'⟩ := other
  obtain rfl : scope = scope' := GeoScope.name_injective (String.toList_inj.mp hscope)
  obtain rfl : value = value' := String.toList_inj.mp hvalue
  rfl

/-- A tag is passed over when it is no key of a place with a value, and no scope without one. -/
theorem ofTag_eq_none (server : String) :
    ofTag server tag = .ok none ↔
      ¬ MalformedTag tag ∧ ∀ location : GeoLocation, location.value ≠ "" → tag ≠ location.key := by
  constructor
  · intro h
    constructor
    · intro hmalformed
      rw [ofTag_of_malformed server hmalformed] at h
      cases h
    · rintro location hvalue rfl
      rw [ofTag_key server hvalue] at h
      cases h
  · rintro ⟨hformed, hother⟩
    rcases ofTag_cases server tag with hmalformed | ⟨location, htag, hvalue⟩ | hnone
    · exact absurd hmalformed hformed
    · exact absurd htag (hother location hvalue)
    · exact hnone

end GeoLocation

namespace Record

variable {record other : Record}

/-- Records of one name that answer different places lie at different paths. -/
theorem location_eq_of_path {location location' : GeoLocation} {options options' : RecordOptions}
    (hrecord : record.options = options.routedTo location) (hother : other.options = options'.routedTo location')
    (hname : record.name = other.name) (h : record.path = other.path) : location = location' := by
  obtain ⟨-, hrest⟩ := path_eq_iff.mp h
  have hid : record.setIdentifier? = some location.setIdentifier := by
    rw [setIdentifier?, hrecord]
    rfl
  have hid' : other.setIdentifier? = some location'.setIdentifier := by
    rw [setIdentifier?, hother]
    rfl
  rw [pathRest, pathRest, hid, hid', hname] at hrest
  exact GeoLocation.setIdentifier_injective ((String.append_left_inj _).mp ((String.append_left_inj _).mp hrest))

end Record

namespace GeoLocation

/-- Tags, keys, set identifiers and paths of records as codes of places. -/
theorem exact_codes :
    (∀ server tag : String,
      (∀ location, ofTag server tag = .ok (some location) ↔ tag = location.key ∧ location.value ≠ "") ∧
      (∀ fault, ofTag server tag = .error fault ↔
        (∃ scope : GeoScope, tag = scope.name ∨ tag = scope.name ++ ":") ∧ fault = .malformedGeoTag server tag) ∧
      (ofTag server tag = .ok none ↔
        (¬ ∃ scope : GeoScope, tag = scope.name ∨ tag = scope.name ++ ":") ∧
          ∀ location : GeoLocation, location.value ≠ "" → tag ≠ location.key)) ∧
    (∀ (server : String) (location : GeoLocation), location.value ≠ "" →
      ofTag server location.key = .ok (some location)) ∧
    (∀ location other : GeoLocation, location ≠ other →
      location.key ≠ other.key ∧ location.setIdentifier ≠ other.setIdentifier ∧
      ∀ (zone : Zone) (type : RecordType) (name : String) (values values' : Values) (options options' : RecordOptions),
        (zone.route53Record ⟨name, type, values, options.routedTo location⟩).path ≠
          (zone.route53Record ⟨name, type, values', options'.routedTo other⟩).path) := by
  refine ⟨fun server tag => ⟨fun location => ofTag_eq_some server, fun fault => ofTag_eq_error, ofTag_eq_none server⟩,
    fun server location => ofTag_key server, fun location other hne => ⟨?_, ?_, ?_⟩⟩
  · exact fun hkey => hne (key_injective hkey)
  · exact fun hid => hne (setIdentifier_injective hid)
  · intro zone type name values values' options options' hpath
    let record : Record := ⟨name, type, values, options.routedTo location⟩
    let record' : Record := ⟨name, type, values', options'.routedTo other⟩
    have hown : zone.pathOf record.path = zone.pathOf record'.path := by
      rwa [Zone.route53Record, Zone.route53Record, Zone.path_addRouting, Zone.path_addRouting] at hpath
    have hrecord : record.path = record'.path := Zone.pathOf_inj.mp hown
    have hoptions : record.options = options.routedTo location := rfl
    have hoptions' : record'.options = options'.routedTo other := rfl
    exact hne (Record.location_eq_of_path hoptions hoptions' rfl hrecord)

/-- A value may hold colons and hyphens, and a text that goes on after a scope names no place. -/
theorem exact_codes_subdivision :
    ofTag "web03.luffy.cx" "subdivision:US-CA:north" = .ok (some ⟨.subdivision, "US-CA:north"⟩) ∧
    ofTag "web03.luffy.cx" "countryside:FR" = .ok none ∧
    ofTag "web03.luffy.cx" "country:" = .error (.malformedGeoTag "web03.luffy.cx" "country:") := by
  obtain ⟨htag, hkey, -⟩ := exact_codes
  refine ⟨hkey "web03.luffy.cx" ⟨.subdivision, "US-CA:north"⟩ (by decide), ?_, ?_⟩
  · decide
  · exact ((htag _ _).2.1 _).mpr ⟨⟨.country, Or.inr (by decide)⟩, rfl⟩

end GeoLocation

end ZoneGraph
