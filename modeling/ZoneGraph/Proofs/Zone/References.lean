import ZoneGraph.Proofs.Resource.Attributes
import ZoneGraph.Proofs.Zone.Registration

/-! References point backwards. A resource is grounded when all it refers to was declared
before it. A zone is grounded when its resources are, and when what it hands out as
references, to its hosted zone, its key and its nameservers, is among them. Every
operation keeps a zone grounded. -/
namespace ZoneGraph

/-! ### Grounded resources -/

/-- Whether a text is a reference to an attribute of one of some resources. -/
def RefersTo (earlier : List Resource) (text : String) : Prop :=
  ∃ other ∈ earlier, ∃ name, text = (other.reference name).interpolate

theorem RefersTo.mono {earlier more : List Resource} {text : String} (h : RefersTo earlier text)
    (hsub : ∀ other ∈ earlier, other ∈ more) : RefersTo more text := by
  obtain ⟨other, ho, name, rfl⟩ := h
  exact ⟨other, hsub other ho, name, rfl⟩

def ResourceKind.referring : ResourceKind → List String
  | .route53Record => ["zone_id"]
  | .hostedZoneKey => ["hosted_zone_id", "key_management_service_arn"]
  | .hostedZoneSigning => ["hosted_zone_id"]
  | .registeredNameservers => ["nameservers"]
  | .registeredKey => ["algorithm", "public_key"]
  | .iamUserPolicy => ["user"]
  | .livednsRecord | .livednsKey | .livednsLookup | .hostedZone | .kmsAlias | .iamUser => []

/-- The rights of a user on the zone of a resource name. -/
def Zone.rightsOn (arn : AttrRef) : Data :=
  .table [
    ("Statement", .list [
      allow
        ["route53:GetChange", "route53:ChangeResourceRecordSets", "route53:ListResourceRecordSets"]
        (Data.texts ["arn:aws:route53:::change/*", arn.interpolate]),
      allow ["route53:ListHostedZones"] (.text "*")]),
    ("Version", .text "2012-10-17")]

namespace Resource

/-- Whether all that a resource refers to is among the resources before it. -/
structure Grounded (earlier : List Resource) (resource : Resource) : Prop where
  dependsOn : ∀ address ∈ resource.dependsOn, ∃ other ∈ earlier, other.address = address
  attributes : ∀ key ∈ resource.kind.referring, ∃ text, resource.text? key = some text ∧ RefersTo earlier text
  policy : resource.kind = .iamUserPolicy → ∃ other ∈ earlier,
    resource.text? "policy" = some (Json.compact (Zone.rightsOn (other.reference "arn")))

theorem Grounded.mono {earlier more : List Resource} {resource : Resource} (h : resource.Grounded earlier)
    (hsub : ∀ other ∈ earlier, other ∈ more) : resource.Grounded more := by
  constructor
  · intro address ha
    obtain ⟨other, ho, heq⟩ := h.dependsOn address ha
    exact ⟨other, hsub other ho, heq⟩
  · intro key hk
    obtain ⟨text, htext, hrefers⟩ := h.attributes key hk
    exact ⟨text, htext, hrefers.mono hsub⟩
  · intro hkind
    obtain ⟨other, ho, htext⟩ := h.policy hkind
    exact ⟨other, hsub other ho, htext⟩

theorem grounded_of_free {earlier : List Resource} {resource : Resource} (hdepends : resource.dependsOn = [])
    (hfree : resource.kind.referring = []) : resource.Grounded earlier := by
  constructor
  · simp [hdepends]
  · simp [hfree]
  · intro hkind
    rw [hkind] at hfree
    cases hfree

end Resource

/-- Whether each of some resources is grounded in those before it. -/
def GroundedAll : List Resource → List Resource → Prop
  | _, [] => True
  | earlier, resource :: rest => resource.Grounded earlier ∧ GroundedAll (earlier ++ [resource]) rest

namespace GroundedAll

variable {earlier resources more : List Resource}

theorem append_iff : GroundedAll earlier (resources ++ more) ↔
    GroundedAll earlier resources ∧ GroundedAll (earlier ++ resources) more := by
  induction resources generalizing earlier with
  | nil => simp [GroundedAll]
  | cons resource rest ih =>
    rw [List.cons_append, GroundedAll, GroundedAll, ih, and_assoc, List.append_assoc]
    rfl

theorem cons_iff {resource : Resource} : GroundedAll earlier (resource :: more) ↔
    resource.Grounded earlier ∧ GroundedAll (earlier ++ [resource]) more :=
  Iff.rfl

theorem singleton_iff {resource : Resource} : GroundedAll earlier [resource] ↔ resource.Grounded earlier :=
  and_iff_left trivial

theorem pair_iff {first second : Resource} : GroundedAll earlier [first, second] ↔
    first.Grounded earlier ∧ second.Grounded (earlier ++ [first]) :=
  cons_iff.trans (and_congr_right fun _ => singleton_iff)

theorem of_forall (h : ∀ resource ∈ resources, resource.Grounded earlier) : GroundedAll earlier resources := by
  induction resources generalizing earlier with
  | nil => trivial
  | cons resource rest ih =>
    obtain ⟨hfirst, hrest⟩ := List.forall_mem_cons.mp h
    exact ⟨hfirst, ih fun other ho => (hrest other ho).mono fun _ => List.mem_append_left _⟩

theorem grounded {before after : List Resource} {resource : Resource}
    (h : GroundedAll earlier (before ++ resource :: after)) : resource.Grounded (earlier ++ before) :=
  (append_iff.mp h).2.1

end GroundedAll

namespace Zone

/-! ### Grounded zones -/

/-- Whether the references of a zone are to its own resources, each declared before it is
referred to, or to resources from outside. -/
structure Grounded (outer : List Resource) (zone : Zone) : Prop where
  resources : GroundedAll outer zone.resources.toList
  hosted : zone.backend = .route53 → zone.hostedZone ∈ zone.resources.toList
  lookup : ∀ ref, zone.lookup = some ref →
    zone.lookupResource ∈ zone.resources.toList ∧ ref = zone.lookupResource.reference "nameservers"
  key : ∀ key, zone.key = some key → ∃ resource ∈ zone.resources.toList, ∃ algorithm ds,
    key = keyOf resource algorithm ds

variable {outer : List Resource} {zone next : Zone}

theorem Grounded.declare {set : ResourceSet} {added : List Resource} (h : zone.Grounded outer)
    (hadded : GroundedAll (outer ++ zone.resources.toList) added)
    (hset : set.toList = zone.resources.toList ++ added) : Grounded outer { zone with resources := set } := by
  have hsub : ∀ resource ∈ zone.resources.toList, resource ∈ set.toList := by
    intro resource hr
    rw [hset]
    exact List.mem_append_left _ hr
  constructor
  · change GroundedAll outer set.toList
    rw [hset]
    exact GroundedAll.append_iff.mpr ⟨h.resources, hadded⟩
  · intro hbackend
    exact hsub _ (h.hosted hbackend)
  · intro ref href
    obtain ⟨hlookup, heq⟩ := h.lookup ref href
    exact ⟨hsub _ hlookup, heq⟩
  · intro key hkey
    obtain ⟨resource, hr, found⟩ := h.key key hkey
    exact ⟨resource, hsub _ hr, found⟩

theorem grounded_open {backend : Backend} {origin : Origin} {provider : Provider}
    (h : Zone.open backend origin provider = .ok zone) : zone.Grounded outer := by
  obtain ⟨hbackend, -, -, hlookup, hkey, hresources⟩ := open_eq_ok h
  constructor
  · rw [hresources]
    split
    · exact GroundedAll.singleton_iff.mpr (Resource.grounded_of_free rfl rfl)
    · trivial
  · intro hroute53
    rw [hresources, if_pos (hbackend ▸ hroute53)]
    exact List.mem_singleton.mpr rfl
  · simp [hlookup]
  · simp [hkey]

/-! ### Operations -/

theorem refersTo_hostedZone (h : zone.Grounded outer) (hbackend : zone.backend = .route53) (name : String) :
    RefersTo (outer ++ zone.resources.toList) (zone.hostedZone.reference name).interpolate :=
  ⟨zone.hostedZone, List.mem_append_right _ (h.hosted hbackend), name, rfl⟩

theorem grounded_recordResource (h : zone.Grounded outer) (record : Record) :
    (zone.recordResource record).Grounded (outer ++ zone.resources.toList) := by
  cases hbackend : zone.backend with
  | livedns =>
    rw [recordResource_of_livedns hbackend]
    exact Resource.grounded_of_free rfl rfl
  | route53 =>
    rw [recordResource_of_route53 hbackend]
    have hkind : (zone.route53Record record).kind = .route53Record := by simp [route53Record, resource]
    constructor
    · simp [route53Record, resource]
    · rw [hkind]
      intro key hk
      obtain rfl := List.mem_singleton.mp hk
      exact ⟨zone.zoneId.interpolate, by simp [route53Record], refersTo_hostedZone h hbackend "zone_id"⟩
    · rw [hkind]
      rintro ⟨⟩

theorem grounded_each_declare {records : List Record} (h : zone.Grounded outer)
    (hrun : Step.each Zone.declare records zone = .ok () next) : next.Grounded outer := by
  obtain ⟨-, set, rfl, hset⟩ := each_declare_ok hrun
  refine h.declare (GroundedAll.of_forall ?_) hset
  rw [List.forall_mem_map]
  exact fun record _ => grounded_recordResource h record

theorem grounded_perform {call : Call} (h : zone.Grounded outer) (hrun : call.perform zone = .ok () next) :
    next.Grounded outer := by
  obtain ⟨records, -, hdeclare⟩ := Call.perform_eq_ok.mp hrun
  exact grounded_each_declare h hdeclare

theorem exists_nameserversRef (h : zone.Grounded outer) (hknown : ¬ zone.needsLookup) :
    ∃ resource ∈ zone.resources.toList, ∃ name, zone.nameserversRef = resource.reference name := by
  cases hbackend : zone.backend with
  | route53 =>
    rw [nameserversRef_of_route53 hbackend]
    exact ⟨zone.hostedZone, h.hosted hbackend, "name_servers", rfl⟩
  | livedns =>
    obtain ⟨ref, href⟩ := Option.ne_none_iff_exists'.mp fun hnone => hknown ⟨hbackend, hnone⟩
    obtain ⟨hlookup, rfl⟩ := h.lookup ref href
    rw [nameserversRef_of_livedns hbackend, href]
    exact ⟨zone.lookupResource, hlookup, "nameservers", rfl⟩

theorem grounded_nameservers {servers : Nameservers} (h : zone.Grounded outer)
    (hrun : nameservers zone = .ok servers next) : next.Grounded outer := by
  obtain ⟨-, ⟨-, rfl⟩ | ⟨⟨hbackend, hnone⟩, fresh, rfl⟩⟩ := nameservers_eq_ok.mp hrun
  · exact h
  · have hlookup : zone.lookupResource.Grounded (outer ++ zone.resources.toList) :=
      Resource.grounded_of_free rfl rfl
    have hdeclared := h.declare (GroundedAll.singleton_iff.mpr hlookup)
      (ResourceSet.toList_append zone.resources _ fresh)
    refine ⟨hdeclared.resources, hdeclared.hosted, ?_, hdeclared.key⟩
    intro ref href
    rw [nameserversRef_of_livedns hbackend, hnone] at href
    exact ⟨by simp [lookupResource, resource, pathOf, path, name], (Option.some.inj href).symm⟩

theorem grounded_hostedZoneKey {handle : SigningKeyHandle} (h : zone.Grounded outer)
    (hbackend : zone.backend = .route53) (hhandle : RefersTo outer handle.keyArn) :
    (zone.hostedZoneKey handle).Grounded (outer ++ zone.resources.toList) := by
  constructor
  · simp [hostedZoneKey, resource]
  · intro key hk
    change key ∈ ["hosted_zone_id", "key_management_service_arn"] at hk
    rcases List.mem_pair.mp hk with rfl | rfl
    · exact ⟨zone.zoneId.interpolate, by simp [hostedZoneKey], refersTo_hostedZone h hbackend "zone_id"⟩
    · exact ⟨handle.keyArn, by simp [hostedZoneKey], hhandle.mono fun _ => List.mem_append_left _⟩
  · rintro ⟨⟩

theorem grounded_hostedZoneSigning {key : Resource} (h : zone.Grounded outer) (hbackend : zone.backend = .route53) :
    (zone.hostedZoneSigning key).Grounded (outer ++ zone.resources.toList ++ [key]) := by
  constructor
  · intro address ha
    obtain rfl := List.mem_singleton.mp ha
    exact ⟨key, by simp, rfl⟩
  · intro name hk
    obtain rfl := List.mem_singleton.mp hk
    refine ⟨zone.zoneId.interpolate, by simp [hostedZoneSigning, Resource.waitFor, Resource.text?, Data.text?], ?_⟩
    exact (refersTo_hostedZone h hbackend "zone_id").mono fun _ => List.mem_append_left _
  · rintro ⟨⟩

/-- Signing keeps a zone grounded when the key kept outside is a resource from outside. -/
theorem grounded_sign {handle : Option SigningKeyHandle} (h : zone.Grounded outer)
    (hhandle : ∀ key, handle = some key → RefersTo outer key.keyArn)
    (hrun : sign handle zone = .ok () next) : next.Grounded outer := by
  obtain ⟨-, rfl⟩ | ⟨added, key, set, hsigns, -, rfl, hset⟩ := sign_ok hrun
  · exact h
  · have hadded : GroundedAll (outer ++ zone.resources.toList) added ∧
        ∃ resource ∈ added, ∃ algorithm ds, key = keyOf resource algorithm ds := by
      cases hsigns with
      | livedns handle hbackend =>
        exact ⟨GroundedAll.singleton_iff.mpr (Resource.grounded_of_free rfl rfl), _, List.mem_singleton.mpr rfl,
          _, _, rfl⟩
      | route53 handle hbackend =>
        exact ⟨GroundedAll.pair_iff.mpr ⟨grounded_hostedZoneKey h hbackend (hhandle handle rfl),
          grounded_hostedZoneSigning h hbackend⟩, _, List.mem_cons_self .., _, _, rfl⟩
    have hdeclared := h.declare hadded.1 hset
    refine ⟨hdeclared.resources, hdeclared.hosted, hdeclared.lookup, ?_⟩
    rintro _ ⟨⟩
    obtain ⟨resource, hr, found⟩ := hadded.2
    refine ⟨resource, ?_, found⟩
    change resource ∈ set.toList
    rw [hset]
    exact List.mem_append_right _ hr

theorem grounded_userPolicy {name : String} (h : zone.Grounded outer) (hbackend : zone.backend = .route53) :
    (zone.userPolicy name).Grounded (outer ++ zone.resources.toList ++ [zone.user name]) := by
  constructor
  · simp [userPolicy, resource]
  · intro key hk
    obtain rfl := List.mem_singleton.mp hk
    exact ⟨_, by simp [userPolicy], zone.user name, by simp, "name", rfl⟩
  · intro hkind
    exact ⟨zone.hostedZone, by simp [h.hosted hbackend], by simp [userPolicy]; rfl⟩

theorem grounded_allowUser {name : String} (h : zone.Grounded outer)
    (hrun : allowUser name zone = .ok () next) : next.Grounded outer := by
  obtain ⟨hbackend, set, rfl, hset⟩ := allowUser_ok hrun
  exact h.declare (GroundedAll.pair_iff.mpr ⟨Resource.grounded_of_free rfl rfl, grounded_userPolicy h hbackend⟩) hset

theorem grounded_registeredNameservers {registrar : Provider} {earlier : List Resource} {ref : AttrRef}
    (href : RefersTo earlier ref.interpolate) :
    (zone.registeredNameservers registrar (.reference ref)).Grounded earlier := by
  constructor
  · simp [registeredNameservers, registrarResource, resource]
  · intro key hk
    obtain rfl := List.mem_singleton.mp hk
    exact ⟨_, by simp [registeredNameservers, Nameservers.toData, Data.text?], href⟩
  · rintro ⟨⟩

theorem grounded_registeredKey {registrar : Provider} {earlier : List Resource} {key : SigningKey}
    (hkey : ∃ resource ∈ earlier, ∃ algorithm ds, key = keyOf resource algorithm ds) :
    (zone.registeredKey registrar key).Grounded earlier := by
  obtain ⟨resource, hr, algorithm, ds, rfl⟩ := hkey
  constructor
  · simp [registeredKey, registrarResource, Zone.resource]
  · intro name hk
    change name ∈ ["algorithm", "public_key"] at hk
    rcases List.mem_pair.mp hk with rfl | rfl
    · exact ⟨_, by simp [registeredKey, keyOf], resource, hr, algorithm, rfl⟩
    · exact ⟨_, by simp [registeredKey, keyOf], resource, hr, "public_key", rfl⟩
  · rintro ⟨⟩

theorem grounded_register {registrar : Provider} {dnssec : Bool} (h : zone.Grounded outer)
    (hrun : register registrar dnssec zone = .ok () next) : next.Grounded outer := by
  obtain ⟨key, between, set, hkey, hservers, rfl, hset⟩ := register_ok hrun
  have hbetween := grounded_nameservers h hservers
  obtain ⟨hknown, href⟩ := nameservers_known hservers
  obtain ⟨other, ho, name, hother⟩ := exists_nameserversRef hbetween hknown
  rw [← Nameservers.reference.inj href] at hother
  have hnameservers : (zone.registeredNameservers registrar (.reference zone.nameserversRef)).Grounded
      (outer ++ between.resources.toList) :=
    grounded_registeredNameservers ⟨other, List.mem_append_right _ ho, name, hother ▸ rfl⟩
  refine hbetween.declare (GroundedAll.cons_iff.mpr ⟨hnameservers, ?_⟩) hset
  cases key with
  | none => trivial
  | some key =>
    have hsame : zone.key = some key := by
      rcases keyFor_eq_ok.mp hkey with ⟨-, hnone⟩ | ⟨-, -, hsome⟩
      · cases hnone
      · exact hsome.symm
    obtain ⟨set, lookup, rfl, -⟩ := extends_nameservers _ _ _ hservers
    obtain ⟨resource, hr, found⟩ := hbetween.key key hsame
    have hearlier := List.mem_append_left [zone.registeredNameservers registrar (.reference zone.nameserversRef)]
      (List.mem_append_right outer hr)
    exact GroundedAll.singleton_iff.mpr (grounded_registeredKey ⟨resource, hearlier, found⟩)

end Zone

end ZoneGraph
