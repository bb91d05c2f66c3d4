import ZoneGraph.Proofs.Deployment.References

/-! A delegation goes to the right child. Of the zones of a name in earlier groups the
first one counts: each member of the group gets a record of that zone's nameservers under
the label, and a record of its key just if the zone is signed. Both refer to what the
zone has declared itself. A file that delegates to a name which no earlier group has does
not build. -/
namespace ZoneGraph

/-! ### What a zone shows -/

/-- An attribute of a resource by which a zone shows something of itself. -/
structure Shown where
  kind : ResourceKind
  id : String
  name : String

namespace Backend

/-- A zone shows its nameservers by its hosted zone, or by its look-up. -/
def nameservers : Backend → Shown
  | .livedns => ⟨.livednsLookup, "LiveDNSNS", "nameservers"⟩
  | .route53 => ⟨.hostedZone, "zone", "name_servers"⟩

/-- A signed zone shows what its parent is to publish by its key. -/
def dsRecord : Backend → Shown
  | .livedns => ⟨.livednsKey, "KSK", "ds"⟩
  | .route53 => ⟨.hostedZoneKey, "KSK", "ds_record"⟩

def recordKind : Backend → ResourceKind
  | .livedns => .livednsRecord
  | .route53 => .route53Record

/-- The attribute that holds the values of a backend's records. -/
def valuesKey : Backend → String
  | .livedns => "values"
  | .route53 => "records"

end Backend

/-- Whether a resource is one that a zone of the spec declares. -/
structure Resource.IsOf (spec : ZoneSpec) (kind : ResourceKind) (id : String) (resource : Resource) : Prop where
  kind : resource.kind = kind
  path : resource.path = spec.path ++ "/" ++ id
  zone : resource.zone = some spec.name

/-- Whether a reference is to what a zone of the spec shows, by one of some resources. -/
def ZoneSpec.Shows (spec : ZoneSpec) (shown : Shown) (resources : List Resource) (ref : AttrRef) : Prop :=
  ∃ resource ∈ resources, resource.IsOf spec shown.kind shown.id ∧ ref = resource.reference shown.name

theorem ZoneSpec.Shows.mono {spec : ZoneSpec} {shown : Shown} {resources more : List Resource} {ref : AttrRef}
    (h : spec.Shows shown resources ref) (hsub : ∀ resource ∈ resources, resource ∈ more) :
    spec.Shows shown more ref := by
  obtain ⟨resource, hr, hshows⟩ := h
  exact ⟨resource, hsub resource hr, hshows⟩

namespace Zone

theorem Signs.update {zone : Zone} {handle : Option SigningKeyHandle} {added : List Resource} {key : SigningKey}
    (h : Signs zone handle added key) (set : ResourceSet) (lookup : Option AttrRef) (kept : Option SigningKey) :
    Signs { zone with resources := set, lookup, key := kept } handle added key := by
  cases h with
  | livedns handle hbackend => exact .livedns handle hbackend
  | route53 handle hbackend => exact .route53 handle hbackend

/-- Whether the key of a zone is one that the zone declares. -/
def KeepsKey (zone : Zone) : Prop :=
  ∀ key, zone.key = some key →
    ∃ handle added, Signs zone handle added key ∧ ∀ resource ∈ added, resource ∈ zone.resources.toList

theorem KeepsKey.of_extends {zone next : Zone} (h : zone.KeepsKey) (hextends : zone.Extends next) : next.KeepsKey := by
  intro key hkey
  have hmem : ∀ resource ∈ zone.resources.toList, resource ∈ next.resources.toList := fun _ => hextends.mem
  obtain ⟨set, lookup, rfl, -⟩ := hextends
  obtain ⟨handle, added, hsigns, hadded⟩ := h key hkey
  exact ⟨handle, added, hsigns.update set lookup _, fun resource hr => hmem resource (hadded resource hr)⟩

theorem keepsKey_sign {handle : Option SigningKeyHandle} :
    Step.Respects (fun zone next => KeepsKey zone → KeepsKey next) (sign handle) := by
  rintro zone ⟨⟩ next hrun h
  obtain ⟨-, rfl⟩ | ⟨added, key, set, hsigns, -, rfl, hset⟩ := sign_ok hrun
  · exact h
  · rintro _ ⟨⟩
    refine ⟨handle, added, hsigns.update set _ _, fun resource hr => ?_⟩
    change resource ∈ set.toList
    rw [hset]
    exact List.mem_append_right _ hr

end Zone

namespace ZoneSpec

variable {file : DeploymentFile} {spec : ZoneSpec} {calls : List (Except Fault Call)} {lookUp : Bool} {zone : Zone}

theorem keepsKey_alone (h : spec.alone file calls lookUp = .ok zone) : zone.KeepsKey := by
  apply alone_keeps h
  · intro provider opened _ hopened key hkey
    obtain ⟨-, -, -, -, hnone, -⟩ := Zone.open_eq_ok hopened
    rw [hnone] at hkey
    cases hkey
  · intro zone value next hrun h
    obtain ⟨-, rfl⟩ | ⟨-, handle, hsign, -⟩ := signZone_ok hrun
    · exact h
    · exact Zone.keepsKey_sign _ _ _ hsign h
  · exact fun name _ _ _ hrun h => h.of_extends (Zone.extends_allowUser name _ _ _ hrun)
  · exact fun _ provider dnssec _ _ _ _ hrun h => h.of_extends (Zone.extends_register provider dnssec _ _ _ hrun)
  · exact fun call _ _ _ hrun h => h.of_extends (Zone.extends_perform call _ _ _ hrun)
  · exact fun _ _ _ hrun h => h.of_extends (Zone.extends_nameservers _ _ _ hrun)

theorem isOf_of_alone {resource : Resource} {kind : ResourceKind} {id : String}
    (h : spec.alone file calls lookUp = .ok zone) (hkind : resource.kind = kind)
    (hpath : resource.path = zone.pathOf id) (hzone : resource.zone = some zone.name) : resource.IsOf spec kind id := by
  obtain ⟨-, hname⟩ := named_of_alone h
  refine ⟨hkind, ?_, hzone.trans (congrArg some hname)⟩
  rw [hpath, Zone.pathOf, path_of_alone h]

theorem shows_nameservers {outer : List Resource} (h : spec.alone file calls lookUp = .ok zone)
    (hgrounded : zone.Grounded outer) (hknown : ¬ zone.needsLookup) :
    spec.Shows spec.backend.nameservers zone.resources.toList zone.nameserversRef := by
  obtain ⟨hbackend, -⟩ := named_of_alone h
  rw [← hbackend]
  cases hhosts : zone.backend with
  | route53 =>
    rw [Zone.nameserversRef_of_route53 hhosts]
    exact ⟨zone.hostedZone, hgrounded.hosted hhosts, isOf_of_alone h rfl rfl rfl, rfl⟩
  | livedns =>
    obtain ⟨ref, href⟩ := Option.ne_none_iff_exists'.mp fun hnone => hknown ⟨hhosts, hnone⟩
    obtain ⟨hlookup, rfl⟩ := hgrounded.lookup ref href
    rw [Zone.nameserversRef_of_livedns hhosts, href]
    exact ⟨zone.lookupResource, hlookup, isOf_of_alone h rfl rfl rfl, rfl⟩

theorem shows_dsRecord {key : SigningKey} (h : spec.alone file calls lookUp = .ok zone) (hkey : zone.key = some key) :
    ∃ ref, spec.Shows spec.backend.dsRecord zone.resources.toList ref ∧ key.dsRecord = ref.interpolate := by
  obtain ⟨hbackend, -⟩ := named_of_alone h
  rw [← hbackend]
  obtain ⟨handle, added, hsigns, hadded⟩ := keepsKey_alone h key hkey
  cases hsigns with
  | livedns handle hhosts =>
    rw [hhosts]
    exact ⟨_, ⟨zone.livednsKey, hadded _ (List.mem_cons_self ..), isOf_of_alone h rfl rfl rfl, rfl⟩, rfl⟩
  | route53 handle hhosts =>
    rw [hhosts]
    exact ⟨_, ⟨zone.hostedZoneKey handle, hadded _ (List.mem_cons_self ..), isOf_of_alone h rfl rfl rfl, rfl⟩, rfl⟩

end ZoneSpec

/-! ### Records of a child -/

/-- The owner of a record in a zone of the spec, as the backend has it. -/
def ZoneSpec.ownerOf (label : String) (spec : ZoneSpec) : String :=
  match spec.backend with
  | .livedns => label
  | .route53 => if label = apex then spec.name else label ++ "." ++ spec.name

structure Resource.IsRecord (spec : ZoneSpec) (label : String) (type : RecordType) (values : Data)
    (resource : Resource) : Prop where
  isOf : resource.IsOf spec spec.backend.recordKind (type.name ++ "-" ++ label)
  type : resource.text? "type" = some type.name
  name : resource.text? "name" = some (spec.ownerOf label)
  values : Keyed.find? spec.backend.valuesKey resource.attributes = some values

theorem ZoneSpec.isRecord_of_alone {file : DeploymentFile} {spec : ZoneSpec} {calls : List (Except Fault Call)}
    {lookUp : Bool} {zone : Zone} (h : spec.alone file calls lookUp = .ok zone) (label : String) {type : RecordType}
    (htype : type ≠ .txt) (values : Values) :
    (zone.recordResource ⟨label, type, values, {}⟩).IsRecord spec label type values.toData := by
  obtain ⟨hbackend, hname⟩ := named_of_alone h
  have hpath := Zone.path_recordResource ⟨label, type, values, {}⟩ zone
  cases hhosts : spec.backend with
  | livedns =>
    rw [hhosts] at hbackend
    rw [Zone.recordResource_of_livedns hbackend] at hpath ⊢
    constructor
    · rw [hhosts]
      exact isOf_of_alone h rfl hpath rfl
    · simp [Zone.livednsRecord]
    · simp [Zone.livednsRecord, ownerOf, hhosts]
    · simp [Zone.livednsRecord, Zone.livednsValues, Backend.valuesKey, hhosts, htype]
  | route53 =>
    rw [hhosts] at hbackend
    rw [Zone.recordResource_of_route53 hbackend] at hpath ⊢
    constructor
    · rw [hhosts]
      exact isOf_of_alone h rfl hpath rfl
    · simp [Zone.route53Record]
    · simp [Zone.route53Record, ownerOf, hhosts, Zone.qualify, hname]
    · simp [Zone.route53Record, Backend.valuesKey, hhosts]

/-- Whether a record names the nameservers that the child shows, by one expression for
the whole list. -/
def Resource.NamesServers (child spec : ZoneSpec) (label : String) (earlier : List Resource) (record : Resource) :
    Prop :=
  ∃ ref, child.Shows child.backend.nameservers earlier ref ∧
    record.IsRecord spec label .ns (.text ("$\x7bformatlist(\"%s.\", " ++ (ref.address ++ "." ++ ref.name) ++ ")\x7d"))

/-- Whether a record has what the key of the child shows as its only value. -/
def Resource.NamesKey (child spec : ZoneSpec) (label : String) (earlier : List Resource) (record : Resource) : Prop :=
  ∃ ref, child.Shows child.backend.dsRecord earlier ref ∧
    record.IsRecord spec label .ds (.list [.text ("$\x7b" ++ (ref.address ++ "." ++ ref.name) ++ "\x7d")])

/-- What a delegation adds to a zone: a record of the child's nameservers, and one of its
key just if the child is signed. -/
inductive Delegated (child spec : ZoneSpec) (label : String) (earlier : List Resource) : List Resource → Prop where
  | unsigned (ns : Resource) (hsign : child.sign = false) (hns : ns.NamesServers child spec label earlier) :
      Delegated child spec label earlier [ns]
  | signed (ns ds : Resource) (hsign : child.sign = true) (hns : ns.NamesServers child spec label earlier)
      (hds : ds.NamesKey child spec label earlier) : Delegated child spec label earlier [ns, ds]

/-- A record of a key is added just if the child is signed. -/
theorem Delegated.exists_ds_iff {child spec : ZoneSpec} {label : String} {earlier added : List Resource}
    (h : Delegated child spec label earlier added) :
    (∃ resource ∈ added, resource.text? "type" = some RecordType.ds.name) ↔ child.sign = true := by
  cases h with
  | unsigned ns hsign hns =>
    obtain ⟨ref, -, hrecord⟩ := hns
    simp [hsign, hrecord.type, RecordType.name]
  | signed ns ds hsign hns hds =>
    obtain ⟨ref, -, hrecord⟩ := hds
    simp [hsign, hrecord.type]

/-! ### One member -/

namespace Zone

theorem each_ask_map_ok (calls : List Call) : Step.each ask (calls.map .ok) = Step.each Call.perform calls := by
  induction calls with
  | nil => rfl
  | cons call rest ih =>
    rw [List.map_cons, Step.each_cons, Step.each_cons, ih]
    rfl

end Zone

/-- A zone built by itself went through each part of its calls. -/
theorem ZoneSpec.alone_append {file : DeploymentFile} {spec : ZoneSpec} {calls own more : List (Except Fault Call)}
    {lookUp : Bool} {zone : Zone} (h : spec.alone file (calls ++ own ++ more) lookUp = .ok zone) :
    ∃ start next, spec.alone file calls false = .ok start ∧ Step.each Zone.ask own start = .ok () next ∧
      spec.alone file (calls ++ own) false = .ok next ∧ next.Extends zone := by
  obtain ⟨prepared, called, hprepared, hcalled, hlast⟩ := alone_eq_ok.mp h
  rw [Step.each_append] at hcalled
  obtain ⟨⟨⟩, next, hnext, hmore⟩ := Step.bind_eq_ok.mp hcalled
  have hparts := hnext
  rw [Step.each_append] at hparts
  obtain ⟨⟨⟩, start, hstart, hown⟩ := Step.bind_eq_ok.mp hparts
  have hextends := Zone.extends_each_ask more _ _ _ hmore
  refine ⟨start, next, alone_eq_ok.mpr ⟨prepared, start, hprepared, hstart, Or.inr ⟨rfl, rfl⟩⟩, hown,
    alone_eq_ok.mpr ⟨prepared, next, hprepared, hnext, Or.inr ⟨rfl, rfl⟩⟩, ?_⟩
  rcases hlast with ⟨-, servers, hservers⟩ | ⟨-, rfl⟩
  · exact hextends.trans (Zone.extends_nameservers _ _ _ hservers)
  · exact hextends

def GroupSpec.delegating (delegations : List DelegationSpec) (group : GroupSpec) : GroupSpec :=
  { group with delegations }

theorem GroupSpec.calls_delegating_append (servers : List Server) (kept : Keyed ZoneSummary) (group : GroupSpec)
    (delegations more : List DelegationSpec) :
    (group.delegating (delegations ++ more)).calls servers kept =
      (group.delegating delegations).calls servers kept ++ more.flatMap (DelegationSpec.calls kept) := by
  simp only [calls, delegating, List.flatMap_append, List.append_assoc]
  rfl

/-- What a group asks before a delegation, for it and after it. -/
theorem GroupSpec.calls_of_delegations {servers : List Server} {kept : Keyed ZoneSummary} {group : GroupSpec}
    {asked toAsk : List DelegationSpec} {delegation : DelegationSpec}
    (h : group.delegations = asked ++ delegation :: toAsk) :
    group.calls servers kept = (group.delegating asked).calls servers kept ++ delegation.calls kept ++
      toAsk.flatMap (DelegationSpec.calls kept) :=
  calc
    group.calls servers kept = (group.delegating (asked ++ delegation :: toAsk)).calls servers kept := by
      rw [← h]
      rfl
    _ = _ := by rw [calls_delegating_append, List.flatMap_cons, List.append_assoc]

theorem delegated_of_ask {file : DeploymentFile} {child spec : ZoneSpec} {known start next : Zone} {label : String}
    {calls childCalls : List (Except Fault Call)} {lookUp lookUpChild : Bool} {outer earlier : List Resource}
    (hchild : child.alone file childCalls lookUpChild = .ok known) (hgrounded : known.Grounded outer)
    (hknown : ¬ known.needsLookup) (hsigned : known.key.isSome = child.sign)
    (hearlier : ∀ resource ∈ known.resources.toList, resource ∈ earlier)
    (hstart : spec.alone file calls lookUp = .ok start)
    (hrun : Step.each Zone.ask ((Call.delegate label known.knownSummary).map .ok) start = .ok () next) :
    ∃ added, next.resources.toList = start.resources.toList ++ added ∧ Delegated child spec label earlier added := by
  rw [Zone.each_ask_map_ok] at hrun
  obtain ⟨records, hplan, hdeclare⟩ := Call.each_perform_ok hrun
  obtain ⟨-, set, rfl, hset⟩ := Zone.each_declare_ok hdeclare
  let servers := Nameservers.reference known.nameserversRef
  have hns : (start.recordResource ⟨label, .ns, servers.fqdnValues, {}⟩).NamesServers child spec label earlier :=
    ⟨_, (ZoneSpec.shows_nameservers hchild hgrounded hknown).mono hearlier,
      ZoneSpec.isRecord_of_alone hstart label (by decide) servers.fqdnValues⟩
  refine ⟨_, hset, ?_⟩
  unfold Call.delegate Zone.knownSummary at hplan
  cases hkey : known.key with
  | none =>
    rw [hkey] at hplan hsigned
    cases hplan
    exact .unsigned _ hsigned.symm hns
  | some key =>
    rw [hkey] at hplan hsigned
    cases hplan
    obtain ⟨ref, hshows, href⟩ := ZoneSpec.shows_dsRecord hchild hkey
    refine .signed _ _ hsigned.symm hns ⟨ref, hshows.mono hearlier, ?_⟩
    rw [href]
    exact ZoneSpec.isRecord_of_alone hstart label (by decide) (.single ref.interpolate)

/-! ### Groups without zones -/

theorem Building.zones_ne_nil_of_group {file : DeploymentFile} {servers : List Server} {keys : Keyed SigningKeyHandle}
    {delegated : List String} {spec : GroupSpec} {building next : Building}
    (h : Building.group file servers keys delegated spec building = .ok () next) : spec.zones ≠ [] := by
  intro hnil
  obtain ⟨opened, between, hopen, h⟩ := Step.bind_eq_ok.mp h
  obtain ⟨stack, hcollect, -⟩ := Step.within_eq_ok.mp hopen
  rw [hnil] at hcollect
  cases hcollect
  rw [Step.get_bind] at h
  obtain ⟨called, start, hcall, -⟩ := Step.bind_eq_ok.mp h
  -- a fan-out needs a member
  cases hcall

namespace DeploymentFile

variable {file : DeploymentFile} {servers : List Server} {stack : Stack} {before after : List GroupSpec}
  {group : GroupSpec} {asked toAsk : List DelegationSpec} {delegation : DelegationSpec} {spec : ZoneSpec}

theorem zones_ne_nil_of_build (h : file.build servers = .ok stack) (hgroup : group ∈ file.groups) :
    group.zones ≠ [] := by
  unfold build at h
  split at h
  · rename_i value building hall
    obtain ⟨keys, ready, -, hgroups⟩ := Step.bind_eq_ok.mp hall
    obtain ⟨_, _, _, hbuilt, -⟩ := Step.each_ok_of_mem hgroups hgroup
    exact Building.zones_ne_nil_of_group hbuilt
  · cases h

/-! ### Whole builds -/

/-- A zone of a group built by itself as far as some delegations of the group, given the
groups before. -/
def memberAfter (file : DeploymentFile) (servers : List Server) (before : List GroupSpec) (group : GroupSpec)
    (delegations : List DelegationSpec) (spec : ZoneSpec) : Except Fault Zone :=
  let summaries := summariesOf (file.runsAfter servers [] [] before)
  spec.alone file ((group.delegating delegations).calls servers summaries) false

theorem delegated_of_build (h : file.build servers = .ok stack) (hgroups : file.groups = before ++ group :: after)
    (hdelegations : group.delegations = asked ++ delegation :: toAsk) (hspec : spec ∈ group.zones) :
    ∃ child, (before.flatMap GroupSpec.zones).find? (·.name = delegation.zone) = some child ∧
      ∃ start next added earlier later, file.memberAfter servers before group asked spec = .ok start ∧
        file.memberAfter servers before group (asked ++ [delegation]) spec = .ok next ∧
        next.resources.toList = start.resources.toList ++ added ∧
        stack.resources.toList = earlier ++ next.resources.toList ++ later ∧
        Delegated child spec delegation.label earlier added := by
  obtain ⟨zones, zone, lookUp, earlier, later, hzones, halone, hstack, hearlier⟩ := member_of_build h hgroups hspec
  have hdelegation : delegation ∈ group.delegations := by simp [hdelegations]
  obtain ⟨child, summary, hchild, hfound, known, hmem, ⟨calls, hknownAlone⟩, hknown, hsigned, rfl⟩ :=
    exists_child hgroups hdelegation hzones halone
  obtain ⟨⟨outer, hgrounded⟩, hbefore⟩ := hearlier known hmem
  -- the zone went through the calls before the delegation, its own calls and those after it
  rw [GroupSpec.calls_of_delegations hdelegations] at halone
  obtain ⟨start, next, hstart, hask, hnext, hextends⟩ := ZoneSpec.alone_append halone
  rw [DelegationSpec.calls, hfound] at hask
  obtain ⟨added, hadded, hdelegated⟩ := delegated_of_ask hknownAlone hgrounded hknown hsigned hbefore hstart hask
  have hmember : file.memberAfter servers before group (asked ++ [delegation]) spec = .ok next := by
    rw [memberAfter, hzones, GroupSpec.calls_delegating_append, List.flatMap_singleton]
    exact hnext
  obtain ⟨set, lookup, rfl, more, hmore⟩ := hextends
  refine ⟨child, hchild, start, next, added, earlier, more ++ later, ?_, hmember, hadded, ?_, hdelegated⟩
  · rw [memberAfter, hzones]
    exact hstart
  · change next.resources.toList ++ more = set.toList at hmore
    rw [hstack, ← hmore]
    simp only [List.append_assoc]

/-- Delegations of a deployment are to the first zone of their name in earlier groups, and
without such a zone there is no build. -/
theorem delegations_to_first_child (file : DeploymentFile) (servers : List Server) :
    (∀ stack, file.build servers = .ok stack → ∀ before group after, file.groups = before ++ group :: after →
      ∀ asked delegation toAsk, group.delegations = asked ++ delegation :: toAsk → ∀ spec ∈ group.zones,
        ∃ child, (before.flatMap GroupSpec.zones).find? (·.name = delegation.zone) = some child ∧
          ∃ start next added earlier later, file.memberAfter servers before group asked spec = .ok start ∧
            file.memberAfter servers before group (asked ++ [delegation]) spec = .ok next ∧
            next.resources.toList = start.resources.toList ++ added ∧
            stack.resources.toList = earlier ++ next.resources.toList ++ later ∧
            Delegated child spec delegation.label earlier added ∧
            ((∃ resource ∈ added, resource.text? "type" = some "DS") ↔ child.sign = true)) ∧
    ∀ before group after, file.groups = before ++ group :: after → ∀ delegation ∈ group.delegations,
      delegation.zone ∉ (before.flatMap GroupSpec.zones).map ZoneSpec.name →
        ∃ fault, file.build servers = .error fault := by
  constructor
  · intro stack h before group after hgroups asked delegation toAsk hdelegations spec hspec
    obtain ⟨child, hchild, start, next, added, earlier, later, hstart, hnext, hadded, hstack, hdelegated⟩ :=
      delegated_of_build h hgroups hdelegations hspec
    exact ⟨child, hchild, start, next, added, earlier, later, hstart, hnext, hadded, hstack, hdelegated,
      hdelegated.exists_ds_iff⟩
  · intro before group after hgroups delegation hdelegation hundeclared
    cases h : file.build servers with
    | error fault => exact ⟨fault, rfl⟩
    | ok stack =>
      have hgroup : group ∈ file.groups := by simp [hgroups]
      obtain ⟨spec, hspec⟩ := List.exists_mem_of_ne_nil _ (zones_ne_nil_of_build h hgroup)
      obtain ⟨asked, toAsk, hdelegations⟩ := List.append_of_mem hdelegation
      obtain ⟨child, hchild, -⟩ := delegated_of_build h hgroups hdelegations hspec
      have hname : child.name = delegation.zone := by simpa using List.find?_some hchild
      exact absurd (List.mem_map.mpr ⟨child, List.mem_of_find?_eq_some hchild, hname⟩) hundeclared

/-- The parent has both records of its signed child. With the groups the other way round
there is no build. -/
theorem delegations_to_first_child_acme :
    (∃ stack child parent earlier own added later, sampleFile.build [] = .ok stack ∧
      child.name = "acme.luffy.cx" ∧ child.backend = .route53 ∧ parent.name = "luffy.cx" ∧ parent.backend = .livedns ∧
      stack.resources.toList = earlier ++ (own ++ added) ++ later ∧ Delegated child parent "acme" earlier added ∧
      ∃ resource ∈ added, resource.text? "type" = some "DS") ∧
    ∃ fault, DeploymentFile.build { sampleFile with groups := sampleFile.groups.reverse } [] = .error fault := by
  constructor
  · obtain ⟨stack, h⟩ := exists_build_sampleFile
    obtain ⟨child, hchild, start, next, added, earlier, later, -, -, hadded, hstack, hdelegated, hds⟩ :=
      (delegations_to_first_child sampleFile []).1 stack h [_] _ [] rfl [] _ [] rfl _ (List.mem_singleton.mpr rfl)
    obtain rfl := Option.some.inj hchild
    rw [hadded] at hstack
    exact ⟨stack, _, _, earlier, _, added, later, h, rfl, rfl, rfl, rfl, hstack, hdelegated, hds.mpr rfl⟩
  · exact (delegations_to_first_child { sampleFile with groups := sampleFile.groups.reverse } []).2 [] _ _ rfl
      ⟨"acme", "acme.luffy.cx"⟩ (List.mem_singleton.mpr rfl) List.not_mem_nil

end DeploymentFile

end ZoneGraph
