import ZoneGraph.Proofs.Bundle.Presented
import ZoneGraph.Proofs.Geo.Codes
import ZoneGraph.Proofs.Geo.Partition
import ZoneGraph.Proofs.Zone.FreePaths
import Mathlib.Data.List.Nodup

/-! Web names on Route53. The servers that answer for a web name are parted by place, and
each place has one record set with the IPv4 addresses of its servers and one with their
IPv6 addresses. What the options say about routing and time to live does not matter: a
set has the routing of its place and lives as long as web addresses do. After these come
the two records that protect the name, for everybody. A zone without records takes all of
them, because places with one set identifier are the same place, so that no two sets lie
at one path whatever the tags are. Only a malformed tag is refused, before any record is
declared. -/
namespace ZoneGraph

/-! ### Addresses -/

namespace Bundle

theorem mem_addresses {name : String} {servers : List Server} {options : RecordOptions} {record : Record}
    (h : record ∈ addresses name servers options) :
    record.name = name ∧ record.options = options ∧ record.type ∈ [RecordType.a, .aaaa] := by
  have hfamily : ∀ {type : RecordType} {values : List String}, record ∈ family name type values options →
      record.name = name ∧ record.options = options ∧ record.type = type := by
    intro type values hmem
    unfold family at hmem
    split at hmem
    · cases hmem
    · obtain rfl := List.mem_singleton.mp hmem
      exact ⟨rfl, rfl, rfl⟩
  rcases List.mem_append.mp h with h | h
  · obtain ⟨hname, hoptions, htype⟩ := hfamily h
    exact ⟨hname, hoptions, by simp [htype]⟩
  · obtain ⟨hname, hoptions, htype⟩ := hfamily h
    exact ⟨hname, hoptions, by simp [htype]⟩

theorem nodup_map_type_addresses (name : String) (servers : List Server) (options : RecordOptions) :
    ((addresses name servers options).map Record.type).Nodup := by
  unfold addresses family
  split <;> split <;> simp

end Bundle

/-! ### Paths -/

namespace Record

theorem nodup_path_of_types {records : List Record} (h : (records.map Record.type).Nodup) :
    (records.map Record.path).Nodup := by
  rw [List.Nodup, List.pairwise_map] at h ⊢
  exact h.imp fun htypes hpath => htypes (path_eq_iff.mp hpath).1

end Record

namespace Bundle

theorem nodup_path_addresses {buckets : List GeoBucket} (h : (buckets.map GeoBucket.location).Nodup) (name : String)
    (options : RecordOptions) :
    ((buckets.flatMap fun bucket =>
      addresses name (bucket.servers.map (·.server)) (options.routedTo bucket.location)).map Record.path).Nodup := by
  rw [List.map_flatMap, List.nodup_flatMap]
  constructor
  · exact fun bucket _ => Record.nodup_path_of_types (nodup_map_type_addresses ..)
  · rw [List.Nodup, List.pairwise_map] at h
    refine h.imp fun {first second} hplaces => List.disjoint_left.mpr ?_
    intro path hfirst hsecond
    obtain ⟨record, hrecord, rfl⟩ := List.mem_map.mp hfirst
    obtain ⟨other, hother, hpath⟩ := List.mem_map.mp hsecond
    obtain ⟨hname, hoptions, -⟩ := mem_addresses hrecord
    obtain ⟨hname', hoptions', -⟩ := mem_addresses hother
    exact hplaces (Record.location_eq_of_path hoptions hoptions' (hname.trans hname'.symm) hpath.symm)

theorem nodup_path_web {buckets : List GeoBucket} (h : (buckets.map GeoBucket.location).Nodup) (origin : Origin)
    (name : String) (options : RecordOptions) :
    (((buckets.flatMap fun bucket =>
      addresses name (bucket.servers.map (·.server)) (options.routedTo bucket.location)) ++
        certificates origin name).map Record.path).Nodup := by
  rw [List.map_append, List.nodup_append]
  refine ⟨nodup_path_addresses h name options, Record.nodup_path_of_types (by simp [certificates]), ?_⟩
  intro path haddress other hother hsame
  obtain ⟨record, hrecord, rfl⟩ := List.mem_map.mp haddress
  obtain ⟨certificate, hcertificate, rfl⟩ := List.mem_map.mp hother
  obtain ⟨bucket, -, hrecord⟩ := List.mem_flatMap.mp hrecord
  obtain ⟨-, -, htype⟩ := mem_addresses hrecord
  have hprotects : certificate.type ∈ [RecordType.caa, .cname] := by
    simp only [certificates, List.mem_cons, List.not_mem_nil, or_false] at hcertificate
    rcases hcertificate with rfl | rfl <;> simp
  rw [(Record.path_eq_iff.mp hsame).1] at htype
  revert htype hprotects
  cases certificate.type <;> decide

end Bundle

theorem GeoBucket.nodup_location {servers : List ServerRef} {buckets : List GeoBucket}
    (h : partition servers = .ok buckets) : (buckets.map GeoBucket.location).Nodup := by
  obtain ⟨-, rfl⟩ := partition_eq_ok h
  exact nodup_foldl_addTo _ (List.nodup_singleton _)

namespace Zone

variable {zone opened : Zone} {origin : Origin} {provider : Provider}

/-! ### Record sets -/

/-- The record set of one type that answers one place, for a web name. -/
def placedSet (name : String) (type : RecordType) (location : GeoLocation) (values : List String) (zone : Zone) :
    Resource where
  kind := .route53Record
  path := "R53-" ++ zone.name ++ "/" ++ type.name ++ "-geo-" ++ location.scope.name ++ "-" ++ location.value ++ "-" ++
    name
  provider := zone.provider.reference
  zone := some zone.name
  attributes := [
    ("geolocation_routing_policy", .list [.table [(location.scope.name, .text location.value)]]),
    ("name", .text (zone.qualify name)),
    ("records", .list (values.map .text)),
    ("set_identifier", .text ("geo-" ++ location.scope.name ++ "-" ++ location.value)),
    ("ttl", .int zone.origin.defaults.webTtl.toNat),
    ("type", .text type.name),
    ("zone_id", .text zone.zoneId.interpolate)]

/-- The record set of one type that answers everybody. -/
def plainSet (name : String) (type : RecordType) (values : List String) (zone : Zone) : Resource where
  kind := .route53Record
  path := "R53-" ++ zone.name ++ "/" ++ type.name ++ "-" ++ name
  provider := zone.provider.reference
  zone := some zone.name
  attributes := [
    ("name", .text (zone.qualify name)),
    ("records", .list (values.map .text)),
    ("ttl", .int zone.origin.defaults.defaultTtl.toNat),
    ("type", .text type.name),
    ("zone_id", .text zone.zoneId.interpolate)]

/-- The record sets of the servers of one place: none for a family without addresses. -/
def placedSets (name : String) (bucket : GeoBucket) (zone : Zone) : List Resource :=
  let ipv4 := bucket.servers.filterMap (·.server.ipv4)
  let ipv6 := bucket.servers.filterMap (·.server.ipv6)
  (if ipv4 = [] then [] else [zone.placedSet name .a bucket.location ipv4]) ++
    if ipv6 = [] then [] else [zone.placedSet name .aaaa bucket.location ipv6]

/-- The two record sets that protect a web name. -/
def protectingSets (name : String) (zone : Zone) : List Resource :=
  let policy := AcmePolicy.ofName zone.name zone.origin.defaults.acmeRoot name
  [zone.plainSet policy.caaName .caa policy.caaValues,
    zone.plainSet policy.challengeName .cname [policy.challengeTarget]]

theorem pathOf_of_route53 (h : zone.backend = .route53) (id : String) :
    zone.pathOf id = "R53-" ++ zone.name ++ "/" ++ id := by
  rw [pathOf, path, h]
  rfl

theorem recordResource_placed (h : zone.backend = .route53) (name : String) (type : RecordType)
    (location : GeoLocation) (values : List String) (options : RecordOptions) :
    zone.recordResource ⟨name, type, .list values,
      (options.withTtl zone.origin.defaults.webTtl).routedTo location⟩ = zone.placedSet name type location values := by
  have hpath : zone.pathOf (type.name ++ "-" ++ location.setIdentifier ++ "-" ++ name) =
      (zone.placedSet name type location values).path := by
    have hhyphen : "-geo-" = "-" ++ "geo-" := rfl
    rw [pathOf_of_route53 h, GeoLocation.setIdentifier, placedSet, hhyphen]
    simp only [String.append_assoc]
  calc zone.recordResource ⟨name, type, .list values, (options.withTtl zone.origin.defaults.webTtl).routedTo location⟩
      = zone.route53Record ⟨name, type, .list values,
          (options.withTtl zone.origin.defaults.webTtl).routedTo location⟩ := recordResource_of_route53 h _
    _ = { zone.placedSet name type location values with
          path := zone.pathOf (type.name ++ "-" ++ location.setIdentifier ++ "-" ++ name) } := rfl
    _ = zone.placedSet name type location values := by rw [hpath]

theorem recordResource_plain (h : zone.backend = .route53) (name : String) (type : RecordType) (values : List String) :
    zone.recordResource ⟨name, type, .list values, {}⟩ = zone.plainSet name type values := by
  have hpath : zone.pathOf (type.name ++ "-" ++ name) = (zone.plainSet name type values).path := by
    rw [pathOf_of_route53 h, plainSet]
    simp only [String.append_assoc]
  calc zone.recordResource ⟨name, type, .list values, {}⟩
      = zone.route53Record ⟨name, type, .list values, {}⟩ := recordResource_of_route53 h _
    _ = { zone.plainSet name type values with path := zone.pathOf (type.name ++ "-" ++ name) } := rfl
    _ = zone.plainSet name type values := by rw [hpath]

theorem map_recordResource_addresses (h : zone.backend = .route53) (name : String) (bucket : GeoBucket)
    (options : RecordOptions) :
    (Bundle.addresses name (bucket.servers.map (·.server))
      ((options.withTtl zone.origin.defaults.webTtl).routedTo bucket.location)).map zone.recordResource =
      zone.placedSets name bucket := by
  have hfamily : ∀ (type : RecordType) (values : List String),
      (Bundle.family name type values
        ((options.withTtl zone.origin.defaults.webTtl).routedTo bucket.location)).map zone.recordResource =
        if values = [] then [] else [zone.placedSet name type bucket.location values] := by
    intro type values
    rw [Bundle.family]
    cases values with
    | nil => rfl
    | cons value rest => exact congrArg ([·]) (recordResource_placed h ..)
  rw [Bundle.addresses, List.map_append, hfamily, hfamily, List.filterMap_map, List.filterMap_map]
  rfl

theorem map_recordResource_certificates (h : zone.backend = .route53) (name : String) :
    (Bundle.certificates zone.origin name).map zone.recordResource = zone.protectingSets name := by
  simp only [Bundle.certificates, List.map_cons, List.map_nil, Values.single, recordResource_plain h]
  rfl

/-! ### Web names -/

theorem servesWeb_iff (server : Server) :
    server.servesWeb = true ↔ server.disabled = false ∧ "web" ∈ server.tags := by
  rw [Server.servesWeb, Bool.and_eq_true, Bool.not_eq_true']
  exact and_congr_right fun _ => decide_eq_true_iff

theorem mem_tagsOf_webServers {servers : List Server} {tag : String} :
    tag ∈ GeoBucket.tagsOf (Call.webServers servers) ↔
      ∃ server ∈ servers, server.disabled = false ∧ "web" ∈ server.tags ∧ tag ∈ server.tags := by
  have htags : GeoBucket.tagsOf (Call.webServers servers) = (servers.filter Server.servesWeb).flatMap Server.tags := by
    rw [← BundleRequest.map_server_webServers, List.flatMap_map]
    rfl
  rw [htags, List.mem_flatMap]
  simp only [List.mem_filter, servesWeb_iff, and_assoc]

section WebName

variable {servers : List Server} {buckets : List GeoBucket} {fault : Fault}

theorem webHosting_of_error (h : zone.backend = .route53) (name : String) (options : RecordOptions)
    (hparts : GeoBucket.partition (Call.webServers servers) = .error fault) :
    (Call.webHosting name servers options).perform zone = .error fault zone := by
  refine Call.perform_of_plan_error ?_
  rw [h, Call.plan, Backend.answering, Call.planWebAddresses, hparts]
  rfl

/-- Once the servers are parted, all records of a web name are declared where their paths
are free. -/
theorem webHosting_of_partition (h : zone.backend = .route53) (name : String) (options : RecordOptions)
    (hparts : GeoBucket.partition (Call.webServers servers) = .ok buckets)
    (hfree : ∀ record : Record, zone.pathOf record.path ∉ zone.resources.paths) :
    ∃ set, (Call.webHosting name servers options).perform zone = .ok () { zone with resources := set } ∧
      set.toList = zone.resources.toList ++ buckets.flatMap (zone.placedSets name) ++ zone.protectingSets name := by
  let placed (bucket : GeoBucket) : List Record := Bundle.addresses name (bucket.servers.map (·.server))
    ((options.withTtl zone.origin.defaults.webTtl).routedTo bucket.location)
  have hplan : (Call.webHosting name servers options).plan zone.backend.answering zone.origin =
      .ok (buckets.flatMap placed ++ Bundle.certificates zone.origin name) := by
    rw [h, Call.plan, Backend.answering, Call.planWebAddresses, hparts]
    rfl
  have htakes (record : Record) : zone.takesRouting record := by
    intro hlivedns
    rw [h] at hlivedns
    cases hlivedns
  obtain ⟨set, heach, hset⟩ := each_declare_of_free (fun record _ => htakes record)
    (Bundle.nodup_path_web (GeoBucket.nodup_location hparts) zone.origin name
      (options.withTtl zone.origin.defaults.webTtl)) (fun record _ => hfree record)
  refine ⟨set, ?_, ?_⟩
  · rw [Call.perform_of_plan_ok hplan]
    exact heach
  · rw [hset, List.map_append, map_recordResource_certificates h, List.map_flatMap, List.append_assoc]
    simp only [map_recordResource_addresses h]

end WebName

/-- A web name on a zone without records is refused for a malformed tag of a server that
answers for it, and then nothing is declared. Else each place has its record sets, with its
own routing and the time to live of web addresses, and the protecting ones follow. -/
theorem webHosting_by_place (hopen : Zone.open .route53 origin provider = .ok opened) (operations : List Operation)
    (hnone : (opened.run operations).records = []) (name : String) (servers : List Server) (options : RecordOptions) :
    let zone := opened.run operations
    let www : Step Zone Unit := (Call.webHosting name servers options).perform
    (Step.Accepts www zone ↔ ∀ server ∈ servers, server.disabled = false → "web" ∈ server.tags →
      ∀ tag ∈ server.tags, ¬ MalformedTag tag) ∧
    (∀ fault next, www zone = .error fault next → next = zone) ∧
    (∀ next, www zone = .ok () next → ∃ buckets set,
      GeoBucket.partition (Call.webServers servers) = .ok buckets ∧ next = { zone with resources := set } ∧
      set.toList = zone.resources.toList ++ buckets.flatMap (zone.placedSets name) ++ zone.protectingSets name) := by
  intro zone www
  have hbackend : zone.backend = .route53 := backend_run hopen operations
  have hwell : (∀ tag ∈ GeoBucket.tagsOf (Call.webServers servers), ¬ MalformedTag tag) ↔
      ∀ server ∈ servers, server.disabled = false → "web" ∈ server.tags → ∀ tag ∈ server.tags, ¬ MalformedTag tag := by
    simp only [mem_tagsOf_webServers]
    exact ⟨fun h server hs hd hw tag ht => h tag ⟨server, hs, hd, hw, ht⟩,
      fun h tag ⟨server, hs, hd, hw, ht⟩ => h server hs hd hw tag ht⟩
  rw [← hwell]
  cases hparts : GeoBucket.partition (Call.webServers servers) with
  | error fault =>
    have hrun : www zone = .error fault zone := webHosting_of_error hbackend name options hparts
    refine ⟨iff_of_false (Step.not_accepts_of_error hrun) ?_, ?_, ?_⟩
    · intro hread
      rw [GeoBucket.partition_of_wellFormed hread] at hparts
      cases hparts
    · intro other next hother
      rw [hrun] at hother
      cases hother
      rfl
    · intro next hok
      rw [hrun] at hok
      cases hok
  | ok buckets =>
    obtain ⟨set, hrun, hset⟩ := webHosting_of_partition hbackend name options hparts
      (path_notMem_of_records_nil hopen hnone)
    refine ⟨iff_of_true ⟨(), _, hrun⟩ (GeoBucket.partition_eq_ok hparts).1, ?_, ?_⟩
    · intro fault next herror
      rw [show www zone = _ from hrun] at herror
      cases herror
    · intro next hok
      rw [show www zone = _ from hrun] at hok
      cases hok
      exact ⟨buckets, set, rfl, rfl, hset⟩

/-- Two servers of one continent, one of them without an IPv6 address, and a disabled one
with a malformed tag. -/
def europeanServers : List Server :=
  [{ name := "web03.luffy.cx", ipv4 := some "192.0.2.3", ipv6 := some "2001:db8::3",
      tags := ["web", "country:FI", "continent:EU"] },
    { name := "web04.luffy.cx", ipv4 := some "192.0.2.4", tags := ["web", "continent:EU"] },
    { name := "web05.luffy.cx", ipv4 := some "192.0.2.5", tags := ["web", "country:"], disabled := true }]

/-- Options that ask for a short time to live and for one country. -/
def americanOptions : RecordOptions := { ttl := some 60, routing := some ⟨"here", ⟨.country, "US"⟩⟩ }

/-- The name, the type, the values and the set identifier of a published record. -/
def sketch (set : Published) : String × RecordType × List String × Option String :=
  (set.name, set.type, set.values, set.setIdentifier)

/-- The sets of everybody, of the country and of the continent, and the protecting ones. -/
def europeanSets : List (String × RecordType × List String × Option String) :=
  [("*.eu.luffy.cx", .a, ["192.0.2.3", "192.0.2.4"], some "geo-country-*"),
    ("*.eu.luffy.cx", .aaaa, ["2001:db8::3"], some "geo-country-*"),
    ("*.eu.luffy.cx", .a, ["192.0.2.3"], some "geo-country-FI"),
    ("*.eu.luffy.cx", .aaaa, ["2001:db8::3"], some "geo-country-FI"),
    ("*.eu.luffy.cx", .a, ["192.0.2.3", "192.0.2.4"], some "geo-continent-EU"),
    ("*.eu.luffy.cx", .aaaa, ["2001:db8::3"], some "geo-continent-EU"),
    ("eu.luffy.cx", .caa, ["0 issue \"letsencrypt.org\"", "0 issuewild \"letsencrypt\""], none),
    ("_acme-challenge.eu.luffy.cx", .cname, ["eu.luffy.cx.acme.luffy.cx."], none)]

/-- A wildcard name is taken by a zone with a user, and the options do not matter. -/
theorem webHosting_by_place_luffy :
    ∃ opened, Zone.open .route53 ⟨"luffy.cx", { acmeRoot := "luffy.cx" }⟩ ⟨.aws, "main", []⟩ = .ok opened ∧
      (opened.run [.allowUser "ACME"]).records = [] ∧
      ∃ next, (Call.webHosting "*.eu" europeanServers americanOptions).perform (opened.run [.allowUser "ACME"]) =
          .ok () next ∧
        next.records.map sketch = europeanSets := by
  have hnone : (Zone.open .route53 ⟨"luffy.cx", { acmeRoot := "luffy.cx" }⟩ ⟨.aws, "main", []⟩).toOption.map
      (fun opened => (opened.run [.allowUser "ACME"]).records) = some [] := by
    decide +kernel
  obtain ⟨opened, hopen, hnone⟩ := Step.exists_ok_of_toOption hnone
  have htags : ∀ server ∈ europeanServers, server.disabled = false → "web" ∈ server.tags →
      ∀ tag ∈ server.tags, ∀ scope ∈ GeoScope.all, ¬ (tag = scope.name ∨ tag = scope.name ++ ":") := by
    decide +kernel
  obtain ⟨haccepts, -, hok⟩ :=
    webHosting_by_place hopen [.allowUser "ACME"] hnone "*.eu" europeanServers americanOptions
  obtain ⟨⟨⟩, next, hrun⟩ := haccepts.mpr fun server hs hd hw tag ht ⟨scope, h⟩ =>
    htags server hs hd hw tag ht scope (by cases scope <;> decide) h
  obtain ⟨buckets, set, hparts, rfl, hset⟩ := hok next hrun
  refine ⟨opened, hopen, hnone, _, hrun, ?_⟩
  have heval : (Zone.open .route53 ⟨"luffy.cx", { acmeRoot := "luffy.cx" }⟩ ⟨.aws, "main", []⟩).toOption.bind
      (fun opened => (GeoBucket.partition (Call.webServers europeanServers)).toOption.map fun buckets =>
        let zone := opened.run [.allowUser "ACME"]
        ((zone.resources.toList ++ buckets.flatMap (zone.placedSets "*.eu") ++ zone.protectingSets "*.eu").filterMap
          Published.ofResource?).map sketch) = some europeanSets := by
    decide +kernel
  rw [hopen, hparts] at heval
  rw [records, ResourceSet.records, hset]
  exact Option.some.inj heval

end Zone

end ZoneGraph
