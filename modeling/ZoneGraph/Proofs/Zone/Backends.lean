import ZoneGraph.Proofs.Geo.Buckets
import ZoneGraph.Proofs.Geo.Identifiers
import ZoneGraph.Proofs.Zone.PublishedRecords
import Mathlib.Data.List.Forall2

/-! Both backends publish one set of records. Calls that succeed on a fresh zone of
each backend ask for the same records there, up to the places that Route53 answers
apart. Leaving those out, the records of the two zones match one by one: Route53
qualifies the owner, LiveDNS puts texts in quotes, and all else is the same. -/
namespace ZoneGraph

/-! ### Records for everybody -/

/-- Whether a published record answers clients of any place: it is not routed, or it
has the identifier of the default answer. -/
def Published.answersEverybody (published : Published) : Bool :=
  published.setIdentifier.all (· = "geo-country-*")

namespace Record

/-- Whether a record is not routed or is routed to the default answer. -/
def isForEverybody (record : Record) : Bool :=
  (record.options.routing.map RoutingSelector.setIdentifier).all (· = GeoLocation.defaultAnswer.setIdentifier)

/-- The same record without its routing. -/
def unrouted (record : Record) : Record := { record with options := { record.options with routing := none } }

theorem unrouted_of_routing_eq_none {record : Record} (h : record.options.routing = none) :
    record.unrouted = record := by
  obtain ⟨name, type, values, ttl, routing⟩ := record
  cases h
  rfl

theorem isForEverybody_of_routing_eq_none {record : Record} (h : record.options.routing = none) :
    record.isForEverybody = true := by
  simp [isForEverybody, h]

theorem isForEverybody_routedTo {record : Record} {options : RecordOptions} {location : GeoLocation}
    (h : record.options = options.routedTo location) :
    record.isForEverybody = decide (location = .defaultAnswer) := by
  rw [isForEverybody, h]
  by_cases hl : location = .defaultAnswer
  · simp [RecordOptions.routedTo, RoutingSelector.ofLocation, hl]
  · have hid : location.setIdentifier ≠ GeoLocation.defaultAnswer.setIdentifier :=
      fun heq => hl (GeoLocation.setIdentifier_injective heq)
    simp [RecordOptions.routedTo, RoutingSelector.ofLocation, hl, hid]

theorem map_unrouted_filter {records : List Record} (h : ∀ record ∈ records, record.options.routing = none) :
    (records.filter isForEverybody).map unrouted = records := by
  rw [List.filter_eq_self.mpr fun record hr => isForEverybody_of_routing_eq_none (h record hr)]
  calc
    records.map unrouted = records.map id :=
      List.map_congr_left fun record hr => unrouted_of_routing_eq_none (h record hr)
    _ = records := List.map_id records

end Record

namespace Bundle

theorem options_of_mem_family {name : String} {type : RecordType} {addresses : List String}
    {options : RecordOptions} {record : Record} (h : record ∈ family name type addresses options) :
    record.options = options := by
  unfold family at h
  split at h
  · cases h
  · obtain rfl := List.mem_singleton.mp h
    rfl

theorem options_of_mem_addresses {name : String} {servers : List Server} {options : RecordOptions}
    {record : Record} (h : record ∈ addresses name servers options) : record.options = options := by
  rcases List.mem_append.mp h with h | h
  · exact options_of_mem_family h
  · exact options_of_mem_family h

theorem map_unrouted_addresses (name : String) (servers : List Server) (options : RecordOptions) :
    (addresses name servers options).map Record.unrouted =
      addresses name servers { options with routing := none } := by
  unfold addresses family
  split <;> split <;> rfl

end Bundle

/-! ### Plans -/

namespace Call

/-- Of the addresses by place, those for everybody are the addresses that are alike. -/
theorem map_unrouted_planWebAddresses {name : String} {servers : List ServerRef} {options : RecordOptions}
    {records : List Record} (hplan : planWebAddresses name servers options .byPlace = .ok records)
    (h : ∀ record ∈ Bundle.addresses name (servers.map (·.server)) options, record.options.routing = none) :
    (records.filter Record.isForEverybody).map Record.unrouted =
      Bundle.addresses name (servers.map (·.server)) options := by
  obtain ⟨buckets, hbuckets, hrecords⟩ := Step.except_bind_eq_ok.mp hplan
  cases hrecords
  obtain ⟨rest, rfl, hrest⟩ := GeoBucket.partition_eq_cons hbuckets
  have hfirst : ∀ record ∈ Bundle.addresses name (servers.map (·.server)) (options.routedTo .defaultAnswer),
      record.isForEverybody = true := by
    intro record hr
    rw [Record.isForEverybody_routedTo (Bundle.options_of_mem_addresses hr)]
    exact decide_eq_true rfl
  have hothers : ∀ record ∈ rest.flatMap fun bucket =>
      Bundle.addresses name (bucket.servers.map (·.server)) (options.routedTo bucket.location),
      ¬ record.isForEverybody = true := by
    intro record hr
    obtain ⟨bucket, hbucket, hr⟩ := List.mem_flatMap.mp hr
    rw [Record.isForEverybody_routedTo (Bundle.options_of_mem_addresses hr), decide_eq_true_eq]
    exact hrest bucket hbucket
  rw [List.flatMap_cons, List.filter_append, List.filter_eq_self.mpr hfirst,
    List.filter_eq_nil_iff.mpr hothers, List.append_nil]
  -- without its routing a record of the default answer is one of the plain addresses, which
  -- are unrouted as well unless there are none
  calc
    _ = (Bundle.addresses name (servers.map (·.server)) options).map Record.unrouted := by
      rw [Bundle.map_unrouted_addresses, Bundle.map_unrouted_addresses]
      rfl
    _ = (Bundle.addresses name (servers.map (·.server)) options).map id :=
      List.map_congr_left fun record hr => Record.unrouted_of_routing_eq_none (h record hr)
    _ = _ := List.map_id _

theorem routing_of_mem_certificates {origin : Origin} {name : String} {record : Record}
    (h : record ∈ Bundle.certificates origin name) : record.options.routing = none := by
  simp only [Bundle.certificates, List.mem_cons, List.not_mem_nil, or_false] at h
  rcases h with rfl | rfl <;> rfl

/-- Of what a call stands for on Route53, the records for everybody are those it stands
for on LiveDNS. -/
theorem map_unrouted_plan {call : Call} {origin : Origin} {alike byPlace : List Record}
    (halike : call.plan .alike origin = .ok alike) (hplace : call.plan .byPlace origin = .ok byPlace)
    (h : ∀ record ∈ alike, record.options.routing = none) :
    (byPlace.filter Record.isForEverybody).map Record.unrouted = alike := by
  cases call with
  | webAddresses name servers options =>
    cases halike
    exact map_unrouted_planWebAddresses hplace h
  | webHosting name servers options =>
    obtain ⟨addresses, ha, heq⟩ := Step.except_bind_eq_ok.mp halike
    obtain ⟨placed, hp, heq'⟩ := Step.except_bind_eq_ok.mp hplace
    cases ha
    cases heq
    cases heq'
    rw [List.filter_append, List.map_append,
      map_unrouted_planWebAddresses hp fun record hr => h record (List.mem_append_left _ hr),
      Record.map_unrouted_filter fun record hr => routing_of_mem_certificates hr]
  | record wanted | mailHosting subdomains | mailServices | serverNames servers options =>
    have heq : alike = byPlace := Except.ok.inj (halike.symm.trans hplace)
    rw [← heq]
    exact Record.map_unrouted_filter h

theorem map_unrouted_planAll {calls : List Call} {origin : Origin} {alike byPlace : List Record}
    (halike : planAll .alike origin calls = .ok alike) (hplace : planAll .byPlace origin calls = .ok byPlace)
    (h : ∀ record ∈ alike, record.options.routing = none) :
    (byPlace.filter Record.isForEverybody).map Record.unrouted = alike := by
  induction calls generalizing alike byPlace with
  | nil =>
    cases halike
    cases hplace
    rfl
  | cons call rest ih =>
    obtain ⟨own, more, hown, hmore, rfl⟩ := planAll_cons_eq_ok.mp halike
    obtain ⟨own', more', hown', hmore', rfl⟩ := planAll_cons_eq_ok.mp hplace
    rw [List.filter_append, List.map_append,
      map_unrouted_plan hown hown' fun record hr => h record (List.mem_append_left _ hr),
      ih hmore hmore' fun record hr => h record (List.mem_append_right _ hr)]

end Call

/-! ### Zones -/

/-- What a run of calls on a fresh zone publishes: the records of their plans. -/
theorem records_of_each_perform {backend : Backend} {origin : Origin} {provider : Provider} {zone next : Zone}
    {calls : List Call} (hopen : Zone.open backend origin provider = .ok zone)
    (hrun : Step.each Call.perform calls zone = .ok () next) :
    ∃ asked, Call.planAll backend.answering origin calls = .ok asked ∧
      (∀ record ∈ asked, zone.takesRouting record) ∧
      next.records = asked.map (Published.ofRecord · zone) := by
  obtain ⟨hbackend, horigin, -, -, -, hresources⟩ := Zone.open_eq_ok hopen
  obtain ⟨asked, hplan, hdeclare⟩ := Call.each_perform_ok hrun
  obtain ⟨htakes, set, rfl, hset⟩ := Zone.each_declare_ok hdeclare
  rw [hbackend, horigin] at hplan
  refine ⟨asked, hplan, htakes, ?_⟩
  have hfresh : zone.resources.toList.filterMap Published.ofResource? = [] := by
    rw [hresources]
    split <;> rfl
  rw [Zone.records, ResourceSet.records, hset, List.filterMap_append, hfresh, List.nil_append,
    Published.filterMap_recordResource]

/-- What zones of one name publish on each backend for a record that was asked of both. -/
structure SameRecord (origin : Origin) (asked : Record) (livedns route53 : Published) : Prop where
  livedns_name : livedns.name = asked.name
  livedns_type : livedns.type = asked.type
  route53_values : route53.values = asked.values.toList
  zone : route53.zone = livedns.zone
  type : route53.type = livedns.type
  ttl : route53.ttl = livedns.ttl
  name : route53.name = if livedns.name = "@" then origin.name else livedns.name ++ "." ++ origin.name
  values : livedns.values =
    if livedns.type = .txt ∧ asked.values.isExpression = false then
      route53.values.map fun value => "\"" ++ value ++ "\""
    else route53.values

theorem answersEverybody_ofRecord {zone : Zone} (hbackend : zone.backend = .route53) (record : Record) :
    (Published.ofRecord record zone).answersEverybody = record.isForEverybody := by
  have hid : GeoLocation.defaultAnswer.setIdentifier = "geo-country-*" := by decide
  rw [Published.answersEverybody, Record.isForEverybody, Published.ofRecord, hbackend, hid]

theorem sameRecord_unrouted {origin : Origin} {livedns route53 : Zone} (hlivedns : livedns.backend = .livedns)
    (hroute53 : route53.backend = .route53) (horigin : livedns.origin = origin) (horigin' : route53.origin = origin)
    (record : Record) :
    SameRecord origin record.unrouted (Published.ofRecord record.unrouted livedns)
      (Published.ofRecord record route53) := by
  have hname : livedns.name = origin.name := by rw [Zone.name, horigin]
  have hname' : route53.name = origin.name := by rw [Zone.name, horigin']
  constructor <;> simp only [Published.ofRecord, Record.unrouted, hlivedns, hroute53, hname, hname']
  · rw [horigin, horigin']
    rfl
  · rw [Zone.qualify, hname', apex]
  · rw [Zone.livednsValues]
    cases record.values <;> by_cases htype : record.type = .txt <;>
      simp [htype, Values.isExpression, Values.toList, Zone.inQuotes]

/-- Calls that succeed on a fresh zone of each backend publish the same records for
everybody, in the same order. -/
theorem backends_publish_same {origin : Origin} {gandi aws : Provider} {livedns livedns' route53 route53' : Zone}
    {calls : List Call} (hlivedns : Zone.open .livedns origin gandi = .ok livedns)
    (hroute53 : Zone.open .route53 origin aws = .ok route53)
    (hrun : Step.each Call.perform calls livedns = .ok () livedns')
    (hrun' : Step.each Call.perform calls route53 = .ok () route53') :
    ∃ asked, Call.planAll .alike origin calls = .ok asked ∧
      livedns'.records.length = asked.length ∧
      (route53'.records.filter Published.answersEverybody).length = asked.length ∧
      List.Forall₂ (fun record pair => SameRecord origin record pair.1 pair.2) asked
        (livedns'.records.zip (route53'.records.filter Published.answersEverybody)) := by
  obtain ⟨hbackend, horigin, -⟩ := Zone.open_eq_ok hlivedns
  obtain ⟨hbackend', horigin', -⟩ := Zone.open_eq_ok hroute53
  obtain ⟨asked, hasked, htakes, hrecords⟩ := records_of_each_perform hlivedns hrun
  obtain ⟨placed, hplaced, -, hrecords'⟩ := records_of_each_perform hroute53 hrun'
  have hshared := Call.map_unrouted_planAll hasked hplaced fun record hr => htakes record hr hbackend
  have hfilter : route53'.records.filter Published.answersEverybody =
      (placed.filter Record.isForEverybody).map (Published.ofRecord · route53) := by
    rw [hrecords', List.filter_map]
    exact congrArg _ (List.filter_congr fun record _ => answersEverybody_ofRecord hbackend' record)
  refine ⟨asked, hasked, ?_, ?_, ?_⟩
  · rw [hrecords, List.length_map]
  · rw [hfilter, List.length_map, ← hshared, List.length_map]
  · rw [hfilter, hrecords, ← hshared, List.map_map, List.zip_map', List.forall₂_map_left_iff,
      List.forall₂_map_right_iff, List.forall₂_same]
    exact fun record _ => sameRecord_unrouted hbackend hbackend' horigin horigin' record

/-- Mail, a web name answered by place, and a text on a zone. -/
def sampleCalls : List Call :=
  [.mailHosting ["vincent"],
    .webHosting "www"
      [{ name := "web03.luffy.cx", ipv4 := some "192.0.2.3", tags := ["web", "continent:EU", "country:*"] }] {},
    .record ⟨"note", .txt, .expression "later", {}⟩]

/-- Whether calls succeed on a fresh zone. -/
def runsFresh (backend : Backend) (origin : Origin) (provider : Provider) (calls : List Call) : Bool :=
  ((Zone.open backend origin provider).bind (Step.answer (Step.each Call.perform calls))).toBool

theorem exists_of_runsFresh {backend : Backend} {origin : Origin} {provider : Provider} {calls : List Call}
    (h : runsFresh backend origin provider calls = true) :
    ∃ zone next, Zone.open backend origin provider = .ok zone ∧ Step.each Call.perform calls zone = .ok () next := by
  unfold runsFresh at h
  cases hopen : Zone.open backend origin provider with
  | error fault => simp [hopen, Except.bind, Except.toBool] at h
  | ok zone =>
    cases hrun : Step.each Call.perform calls zone with
    | ok value next => exact ⟨zone, next, rfl, hrun⟩
    | error fault next => simp [hopen, Except.bind, Step.answer_of_error hrun, Except.toBool] at h

theorem backends_publish_same_luffy :
    ∃ livedns livedns' route53 route53' asked,
      Zone.open .livedns ⟨"luffy.cx", { acmeRoot := "luffy.cx" }⟩ ⟨.gandi, "vb", []⟩ = .ok livedns ∧
      Zone.open .route53 ⟨"luffy.cx", { acmeRoot := "luffy.cx" }⟩ ⟨.aws, "main", []⟩ = .ok route53 ∧
      Step.each Call.perform sampleCalls livedns = .ok () livedns' ∧
      Step.each Call.perform sampleCalls route53 = .ok () route53' ∧
      Call.planAll .alike ⟨"luffy.cx", { acmeRoot := "luffy.cx" }⟩ sampleCalls = .ok asked ∧
      List.Forall₂ (fun record pair => SameRecord ⟨"luffy.cx", { acmeRoot := "luffy.cx" }⟩ record pair.1 pair.2) asked
        (livedns'.records.zip (route53'.records.filter Published.answersEverybody)) := by
  obtain ⟨livedns, livedns', hlivedns, hrun⟩ := exists_of_runsFresh
    (show runsFresh .livedns ⟨"luffy.cx", { acmeRoot := "luffy.cx" }⟩ ⟨.gandi, "vb", []⟩ sampleCalls = true by
      decide +kernel)
  obtain ⟨route53, route53', hroute53, hrun'⟩ := exists_of_runsFresh
    (show runsFresh .route53 ⟨"luffy.cx", { acmeRoot := "luffy.cx" }⟩ ⟨.aws, "main", []⟩ sampleCalls = true by
      decide +kernel)
  obtain ⟨asked, hasked, -, -, hsame⟩ := backends_publish_same hlivedns hroute53 hrun hrun'
  exact ⟨livedns, livedns', route53, route53', asked, hlivedns, hroute53, hrun, hrun', hasked, hsame⟩

end ZoneGraph
