import ZoneGraph.Proofs.Form.Parts
import ZoneGraph.Proofs.Resource.Attributes
import ZoneGraph.Proofs.Zone.Declarations

/-! How declared records are published. The view of a zone shows each record that was
declared, as its backend has it, and no other resource. -/
namespace ZoneGraph

theorem RecordType.ofName?_name (type : RecordType) : ofName? type.name = some type := by
  cases type <;> decide

theorem Values.filterMap_text? (values : List String) : (values.map Data.text).filterMap Data.text? = values := by
  induction values with
  | nil => rfl
  | cons value rest ih => rw [List.map_cons, List.filterMap_cons, Data.text?, ih]

namespace Published

theorem values?_toData (values : Values) : values? values.toData = some values.toList := by
  cases values with
  | list values => exact congrArg some (Values.filterMap_text? values)
  | expression text => rfl

theorem ofResource?_eq_some {resource : Resource} {key zone name : String} {type : RecordType} {values : Values}
    {time : Data} {ttl : UInt32} (hkey : valuesKey? resource.kind = some key)
    (hvalues : Keyed.find? key resource.attributes = some values.toData) (hzone : resource.zone = some zone)
    (hname : resource.text? "name" = some name) (htype : resource.text? "type" = some type.name)
    (htime : Keyed.find? "ttl" resource.attributes = some time) (httl : time.word? = some ttl) :
    ofResource? resource =
      some ⟨zone, name, type, values.toList, ttl, resource.text? "set_identifier"⟩ := by
  simp [ofResource?, hkey, hvalues, hzone, hname, htype, htime, httl, values?_toData, RecordType.ofName?_name]

/-- What a zone publishes for a record that was declared there. -/
def ofRecord (record : Record) (zone : Zone) : Published where
  zone := zone.name
  name := match zone.backend with
    | .livedns => record.name
    | .route53 => zone.qualify record.name
  type := record.type
  values := match zone.backend with
    | .livedns => (Zone.livednsValues record).toList
    | .route53 => record.values.toList
  ttl := record.ttlOr zone.origin.defaults.defaultTtl
  setIdentifier := match zone.backend with
    | .livedns => none
    | .route53 => record.options.routing.map RoutingSelector.setIdentifier

/-- The entry that a backend has for everybody under a name. -/
def plain (backend : Backend) (origin : Origin) (name : String) (type : RecordType) (values : List String)
    (ttl : UInt32) : Published where
  zone := origin.name
  name := match backend with
    | .livedns => name
    | .route53 => if name = "@" then origin.name else name ++ "." ++ origin.name
  type := type
  values := if backend = .livedns ∧ type = .txt then values.map ("\"" ++ · ++ "\"") else values
  ttl := ttl
  setIdentifier := none

theorem ofRecord_plain (name : String) (type : RecordType) (values : List String) (ttl : Option UInt32) (zone : Zone) :
    ofRecord ⟨name, type, .list values, { ttl }⟩ zone =
      plain zone.backend zone.origin name type values (ttl.getD zone.origin.defaults.defaultTtl) := by
  cases hbackend : zone.backend with
  | livedns =>
    by_cases htype : type = .txt
    · simp only [ofRecord, plain, hbackend, Zone.livednsValues, htype]
      rfl
    · simp only [ofRecord, plain, hbackend, Zone.livednsValues, htype]
      rfl
  | route53 =>
    simp only [ofRecord, plain, hbackend]
    rfl

theorem ofResource?_recordResource (record : Record) (zone : Zone) :
    ofResource? (zone.recordResource record) = some (ofRecord record zone) := by
  have httl : (zone.ttlOf record).word? = some (record.ttlOr zone.origin.defaults.defaultTtl) :=
    Data.word?_toNat _
  cases hb : zone.backend with
  | livedns =>
    have hvalues : Keyed.find? "values" (zone.livednsRecord record).attributes =
        some (Zone.livednsValues record).toData := by
      simp [Zone.livednsRecord]
    have hname : (zone.livednsRecord record).text? "name" = some record.name := by simp [Zone.livednsRecord]
    have htype : (zone.livednsRecord record).text? "type" = some record.type.name := by simp [Zone.livednsRecord]
    have htime : Keyed.find? "ttl" (zone.livednsRecord record).attributes = some (zone.ttlOf record) := by
      simp [Zone.livednsRecord]
    rw [Zone.recordResource_of_livedns hb, ofResource?_eq_some rfl hvalues rfl hname htype htime httl, ofRecord, hb]
    simp [Zone.livednsRecord, Zone.resource, Resource.text?]
  | route53 =>
    have hkey : valuesKey? (zone.route53Record record).kind = some "records" := by
      simp [Zone.route53Record, Zone.resource, valuesKey?]
    have hvalues : Keyed.find? "records" (zone.route53Record record).attributes = some record.values.toData := by
      simp [Zone.route53Record]
    have hzone : (zone.route53Record record).zone = some zone.name := by simp [Zone.route53Record, Zone.resource]
    have hname : (zone.route53Record record).text? "name" = some (zone.qualify record.name) := by
      simp [Zone.route53Record]
    have htype : (zone.route53Record record).text? "type" = some record.type.name := by simp [Zone.route53Record]
    have htime : Keyed.find? "ttl" (zone.route53Record record).attributes = some (zone.ttlOf record) := by
      simp [Zone.route53Record]
    rw [Zone.recordResource_of_route53 hb, ofResource?_eq_some hkey hvalues hzone hname htype htime httl, ofRecord, hb]
    cases hr : record.options.routing <;>
      simp [Zone.route53Record, Zone.addRouting, Zone.resource, Resource.text?, Data.text?, hr]

theorem filterMap_recordResource (records : List Record) (zone : Zone) :
    (records.map zone.recordResource).filterMap ofResource? = records.map (ofRecord · zone) := by
  rw [List.filterMap_map]
  calc
    records.filterMap (ofResource? ∘ zone.recordResource) = records.filterMap (some ∘ (ofRecord · zone)) :=
      List.filterMap_congr fun record _ => ofResource?_recordResource record zone
    _ = records.map (ofRecord · zone) := by rw [List.filterMap_eq_map]

end Published
end ZoneGraph
