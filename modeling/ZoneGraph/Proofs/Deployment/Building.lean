import ZoneGraph.Deployment.Load
import ZoneGraph.Proofs.Deployment.Closing
import ZoneGraph.Proofs.Deployment.Direct
import ZoneGraph.Proofs.Form.Deployment
import ZoneGraph.Proofs.Resource.Attributes

/-! Building a deployment is building every zone by itself. A build that succeeds hands
over the aliases of the signing keys and then, zone after zone, what each zone declares
when all that is asked of it is asked of it alone. It puts out one identifier for each
zone that asks for it. If a zone cannot be built alone, there is no build. -/
namespace ZoneGraph

/-! ### Providers and keys -/

namespace Resource

theorem new_eq_ok {kind : ResourceKind} {path : String} {provider : Provider} {resource : Resource} :
    Resource.new kind path provider = .ok resource ↔
      provider.kind = kind.providerKind ∧ resource = { kind, path, provider := provider.reference } := by
  unfold Resource.new Provider.expect
  by_cases h : provider.kind = kind.providerKind
  · rw [if_pos h]
    simp [h, bind, Except.bind, pure, Except.pure, eq_comm]
  · rw [if_neg h]
    simp [h, bind, Except.bind]

end Resource

theorem Stack.kmsAlias_eq_ok {id keyAlias keyId : String} {provider : Provider} {stack next : Stack}
    {handle : SigningKeyHandle} :
    kmsAlias id keyAlias keyId provider stack = .ok handle next ↔
      ∃ made, Resource.new .kmsAlias id provider = .ok made ∧ handle = ⟨(made.reference "target_key_arn").interpolate⟩ ∧
        absorb [made |>.setText "name" keyAlias |>.setText "target_key_id" keyId] stack = .ok () next := by
  rw [kmsAlias, Step.lift_bind_eq_ok]
  refine exists_congr fun made => and_congr_right fun _ => ?_
  rw [Step.bind_eq_ok]
  constructor
  · rintro ⟨⟨⟩, between, habsorb, h⟩
    obtain ⟨rfl, rfl⟩ := Step.pure_eq_ok.mp h
    exact ⟨rfl, habsorb⟩
  · rintro ⟨rfl, habsorb⟩
    exact ⟨(), next, habsorb, rfl⟩

namespace DeploymentFile

variable {file : DeploymentFile}

theorem find?_providerList (name : String) :
    Keyed.find? name (file.providerList.map fun provider => (provider.name, provider)) =
      (Keyed.find? name file.providers).map fun spec => ⟨spec.kind, name, spec.settings⟩ := by
  unfold providerList
  induction file.providers with
  | nil => rfl
  | cons entry rest ih =>
    rw [List.map_cons, List.map_cons, Keyed.find?, Keyed.find?]
    split
    · rename_i heq
      simp [← heq]
    · exact ih

def providerTable (file : DeploymentFile) : Keyed Provider :=
  Keyed.ofList (file.providerList.map fun provider => (provider.name, provider))

theorem arranged_providerTable (file : DeploymentFile) : Arranged file.providerTable := by
  refine ⟨Keyed.sorted_ofList _, fun entry hentry => ?_⟩
  obtain ⟨provider, -, rfl⟩ := List.mem_map.mp (Keyed.mem_ofList hentry)
  rfl

/-- The providers of a file are added to a stack just if no two of them share a name. -/
theorem each_addProvider_eq_ok {stack next : Stack} (h : stack.providers = []) :
    Step.each Stack.addProvider file.providerList stack = .ok () next ↔
      file.providers.keys.Nodup ∧ next = { stack with providers := file.providerTable } := by
  have hkeys : file.providerList.map Provider.name = file.providers.keys := List.map_map
  rw [Stack.each_addProvider_eq_ok h, hkeys, providerTable]

/-- A stack with the providers of a file knows exactly these. -/
theorem provider_of_table {stack : Stack} (hnames : file.providers.keys.Nodup)
    (h : stack.providers = file.providerTable) (name : String) : stack.provider name = file.provider name := by
  have hkeys : ((file.providerList.map fun provider => (provider.name, provider)).map Prod.fst).Nodup := by
    rw [List.map_map, providerList, List.map_map]
    exact hnames
  rw [Stack.provider, h, providerTable, Keyed.find?_ofList hkeys, find?_providerList, provider]
  cases Keyed.find? name file.providers <;> rfl

theorem keyAlias_eq_ok {entry : String × SigningKeySpec} {resource : Resource} :
    file.keyAlias entry = .ok resource ↔
      ∃ provider made, file.provider entry.2.provider = .ok provider ∧
        Resource.new .kmsAlias entry.1 provider = .ok made ∧
        resource = (made |>.setText "name" entry.2.keyAlias |>.setText "target_key_id" entry.2.keyId) := by
  simp only [keyAlias, Step.except_bind_eq_ok]
  constructor
  · rintro ⟨provider, hprovider, made, hnew, hresource⟩
    exact ⟨provider, made, hprovider, hnew, (Except.ok.inj hresource).symm⟩
  · rintro ⟨provider, made, hprovider, hnew, rfl⟩
    exact ⟨provider, hprovider, made, hnew, rfl⟩

theorem declareKey_eq_ok {entry : String × SigningKeySpec} {stack next : Stack} {key : String × SigningKeyHandle}
    (hproviders : ∀ name, stack.provider name = file.provider name) :
    declareKey entry stack = .ok key next ↔ key = (entry.1, keyHandle entry.1) ∧
      ∃ resource, file.keyAlias entry = .ok resource ∧ Stack.absorb [resource] stack = .ok () next := by
  rw [declareKey, Step.get_bind, Step.lift_bind_eq_ok, hproviders]
  constructor
  · rintro ⟨provider, hprovider, h⟩
    obtain ⟨handle, between, hkey, h⟩ := Step.bind_eq_ok.mp h
    obtain ⟨rfl, rfl⟩ := Step.pure_eq_ok.mp h
    obtain ⟨resource, hnew, rfl, habsorb⟩ := Stack.kmsAlias_eq_ok.mp hkey
    refine ⟨?_, _, keyAlias_eq_ok.mpr ⟨provider, resource, hprovider, hnew, rfl⟩, habsorb⟩
    obtain ⟨-, rfl⟩ := Resource.new_eq_ok.mp hnew
    rfl
  · rintro ⟨rfl, _, halias, habsorb⟩
    obtain ⟨provider, resource, hprovider, hnew, rfl⟩ := keyAlias_eq_ok.mp halias
    have hkey := Stack.kmsAlias_eq_ok.mpr ⟨resource, hnew, rfl, habsorb⟩
    refine ⟨provider, hprovider, Step.bind_eq_ok.mpr ⟨_, next, hkey, ?_⟩⟩
    obtain ⟨-, rfl⟩ := Resource.new_eq_ok.mp hnew
    rfl

/-- Declaring the signing keys is absorbing their aliases, in order. -/
theorem collect_declareKey_eq_ok {entries : Keyed SigningKeySpec} {stack next : Stack}
    {keys : Keyed SigningKeyHandle} (hproviders : ∀ name, stack.provider name = file.provider name) :
    Step.collect declareKey entries stack = .ok keys next ↔
      keys = entries.map (fun entry => (entry.1, keyHandle entry.1)) ∧
        ∃ aliases, entries.mapM file.keyAlias = .ok aliases ∧
          Step.each (fun resource => Stack.absorb [resource]) aliases stack = .ok () next := by
  induction entries generalizing stack keys with
  | nil =>
    constructor
    · intro h
      cases h
      exact ⟨rfl, [], rfl, rfl⟩
    · rintro ⟨rfl, aliases, haliases, habsorb⟩
      cases haliases
      cases habsorb
      rfl
  | cons entry rest ih =>
    have hkept {between : Stack} {resource : Resource} (h : Stack.absorb [resource] stack = .ok () between)
        (name : String) : between.provider name = file.provider name := by
      obtain ⟨set, rfl, -⟩ := Stack.absorb_eq_ok.mp h
      exact hproviders name
    rw [Step.collect_cons_eq_ok, List.mapM_cons]
    constructor
    · rintro ⟨key, others, between, hkey, hrest, rfl⟩
      obtain ⟨rfl, resource, halias, habsorb⟩ := (declareKey_eq_ok hproviders).mp hkey
      obtain ⟨rfl, aliases, haliases, hmore⟩ := (ih (hkept habsorb)).mp hrest
      refine ⟨rfl, resource :: aliases, ?_, Step.bind_eq_ok.mpr ⟨(), between, habsorb, hmore⟩⟩
      rw [halias, haliases]
      rfl
    · rintro ⟨rfl, aliases, haliases, habsorb⟩
      obtain ⟨resource, halias, haliases⟩ := Step.except_bind_eq_ok.mp haliases
      obtain ⟨others, hothers, haliases⟩ := Step.except_bind_eq_ok.mp haliases
      cases haliases
      obtain ⟨⟨⟩, between, hfirst, hmore⟩ := Step.bind_eq_ok.mp habsorb
      exact ⟨_, _, between, (declareKey_eq_ok hproviders).mpr ⟨rfl, resource, halias, hfirst⟩,
        (ih (hkept hfirst)).mpr ⟨rfl, others, hothers, hmore⟩, rfl⟩

theorem path_keyAliases {aliases : List Resource} (h : file.keyAliases = .ok aliases) :
    aliases.map Resource.path = file.signingKeys.keys := by
  have hall := Step.mapM_ok h
  clear h
  unfold Keyed.keys
  generalize file.signingKeys = entries at hall ⊢
  induction hall with
  | nil => rfl
  | @cons entry resource rest others hfirst hothers ih =>
    obtain ⟨provider, made, -, hnew, rfl⟩ := keyAlias_eq_ok.mp hfirst
    obtain ⟨-, rfl⟩ := Resource.new_eq_ok.mp hnew
    rw [List.map_cons, List.map_cons, ih]
    rfl

end DeploymentFile

/-! ### Groups -/

namespace Building

variable {file : DeploymentFile} {before : List ZoneSpec}

/-- Whether a build has come as far as the zones built so far would have it. -/
structure Reached (file : DeploymentFile) (aliases : List Resource) (before : List ZoneSpec) (zones : List Zone)
    (building : Building) : Prop where
  named : file.providers.keys.Nodup
  table : building.stack.providers = file.providerTable
  length : before.length = zones.length
  resources : building.stack.resources.toList = aliases ++ zones.flatMap (·.resources.toList)
  outputs : building.stack.outputs = Keyed.ofList (ZoneSpec.outputs before zones)
  distinct : ((ZoneSpec.outputs before zones).map Prod.fst).Nodup
  known : Known file before zones building.summaries

/-- The stack knows exactly the providers of the file. -/
theorem Reached.providers {aliases : List Resource} {zones : List Zone} {building : Building}
    (h : Reached file aliases before zones building) (name : String) :
    building.stack.provider name = file.provider name :=
  DeploymentFile.provider_of_table h.named h.table name

theorem Reached.arranged {aliases : List Resource} {zones : List Zone} {building : Building}
    (h : Reached file aliases before zones building) : Arranged building.stack.providers := by
  rw [h.table]
  exact file.arranged_providerTable

theorem calls_congr {servers : List Server} {kept others : Keyed ZoneSummary} {spec : GroupSpec}
    (h : ∀ delegation ∈ spec.delegations, Keyed.find? delegation.zone kept = Keyed.find? delegation.zone others) :
    spec.calls servers kept = spec.calls servers others := by
  unfold GroupSpec.calls
  congr 1
  refine List.flatMap_congr fun delegation hd => ?_
  rw [DelegationSpec.calls, DelegationSpec.calls, h delegation hd]

/-- What a group asks depends only on what the zones built so far have left. -/
theorem Reached.calls_eq {servers : List Server} {aliases : List Resource} {zones : List Zone} {building : Building}
    {spec : GroupSpec} (h : Reached file aliases before zones building) (hspec : spec ∈ file.groups) :
    spec.calls servers building.summaries = spec.calls servers (summariesOf (zones.map .ok)) := by
  apply calls_congr
  intro delegation hd
  apply h.known.same
  exact List.mem_flatMap.mpr ⟨spec, hspec, List.mem_map_of_mem hd⟩

theorem group_ok {servers : List Server} {aliases : List Resource} {zones : List Zone} {building next : Building}
    {spec : GroupSpec} (hspec : spec ∈ file.groups) (hreached : Reached file aliases before zones building)
    (h : group file servers file.keyHandles file.delegated spec building = .ok () next) :
    ∃ built, file.groupRuns (spec.calls servers (summariesOf (zones.map .ok))) before spec.zones = built.map .ok ∧
      Reached file aliases (before ++ spec.zones) (zones ++ built) next := by
  obtain ⟨prepared, between, hopen, h⟩ := Step.bind_eq_ok.mp h
  obtain ⟨stack, hcollect, rfl⟩ := Step.within_eq_ok.mp hopen
  obtain ⟨hprepared, hput⟩ := (ZoneSpec.collect_build_eq_ok hreached.providers).mp hcollect
  obtain ⟨hdistinct, rfl⟩ := (Stack.putOut_eq_ok hreached.distinct hreached.outputs).mp hput
  rw [Step.get_bind] at h
  obtain ⟨called, start, hcall, hclose⟩ := Step.bind_eq_ok.mp h
  obtain ⟨-, rfl, hcalled⟩ := callZones_eq_ok.mp hcall
  rw [hreached.calls_eq hspec] at hcalled
  obtain ⟨built, set, hruns, hknown, hstack, hset⟩ :=
    each_close_called hprepared hcalled (by exact hreached.known) hclose
  rw [← ZoneSpec.outputs_of_prepared hprepared hruns, ← ZoneSpec.outputs_append hreached.length] at hdistinct hstack
  refine ⟨built, hruns, hreached.named, ?_, ?_, ?_, ?_, hdistinct, hknown⟩
  · rw [hstack]
    exact hreached.table
  · rw [List.length_append, List.length_append, hreached.length, DeploymentFile.length_of_groupRuns hruns]
  · rw [hstack, List.flatMap_append, ← List.append_assoc, ← hreached.resources]
    exact hset
  · rw [hstack]

/-- A run over groups builds every zone of theirs as it is built by itself. -/
theorem each_group_ok {servers : List Server} {aliases : List Resource} {zones : List Zone}
    {building next : Building} {groups : List GroupSpec} (hgroups : ∀ spec ∈ groups, spec ∈ file.groups)
    (hreached : Reached file aliases before zones building)
    (h : Step.each (group file servers file.keyHandles file.delegated) groups building = .ok () next) :
    ∃ built, file.runsAfter servers before (zones.map .ok) groups = built.map .ok ∧
      Reached file aliases (before ++ groups.flatMap GroupSpec.zones) (zones ++ built) next := by
  induction groups generalizing before zones building with
  | nil =>
    cases h
    exact ⟨[], rfl, by simpa using hreached⟩
  | cons spec rest ih =>
    obtain ⟨⟨⟩, between, hgroup, hrest⟩ := Step.bind_eq_ok.mp h
    obtain ⟨hspec, hgroups⟩ := List.forall_mem_cons.mp hgroups
    obtain ⟨built, hruns, hbetween⟩ := group_ok hspec hreached hgroup
    obtain ⟨more, hmore, hnext⟩ := ih hgroups hbetween hrest
    refine ⟨built ++ more, ?_, ?_⟩
    · rw [DeploymentFile.runsAfter, hruns, ← List.map_append, hmore, List.map_append]
    · rw [List.flatMap_cons, ← List.append_assoc, ← List.append_assoc]
      exact hnext

end Building

/-! ### Whole builds -/

namespace DeploymentFile

variable {file : DeploymentFile}

/-- A build before its groups, with the providers of the file and the aliases of its keys. -/
def started (file : DeploymentFile) (aliases : ResourceSet) : Building :=
  { stack := { name := file.name, providers := file.providerTable, resources := aliases } }

/-- A build declares the providers and the signing keys and then runs over the groups. -/
theorem buildAll_eq_ok {servers : List Server} {building : Building} :
    file.buildAll servers { stack := { name := file.name } } = .ok () building ↔
      file.providers.keys.Nodup ∧ ∃ aliases : ResourceSet, file.keyAliases = .ok aliases.toList ∧
        Step.each (Building.group file servers file.keyHandles file.delegated) file.groups (file.started aliases) =
          .ok () building := by
  rw [buildAll, Step.bind_eq_ok]
  constructor
  · rintro ⟨keys, ready, hready, hgroups⟩
    obtain ⟨stack, hstack, rfl⟩ := Step.within_eq_ok.mp hready
    obtain ⟨⟨⟩, supplied, hadd, hkeys⟩ := Step.bind_eq_ok.mp hstack
    obtain ⟨hnames, rfl⟩ := (each_addProvider_eq_ok rfl).mp hadd
    obtain ⟨rfl, aliases, haliases, habsorb⟩ := (collect_declareKey_eq_ok (provider_of_table hnames rfl)).mp hkeys
    obtain ⟨set, rfl, hset⟩ := Stack.absorb_eq_ok.mp (Stack.each_absorb_eq_ok.mp habsorb)
    have hset : set.toList = aliases := by simpa using hset
    exact ⟨hnames, set, hset ▸ haliases, hgroups⟩
  · rintro ⟨hnames, aliases, haliases, hgroups⟩
    have habsorb : Stack.absorb aliases.toList { name := file.name, providers := file.providerTable } =
        .ok () (file.started aliases).stack := Stack.absorb_eq_ok.mpr ⟨aliases, rfl, rfl⟩
    have hkeys := (collect_declareKey_eq_ok (provider_of_table hnames rfl)).mpr
      ⟨rfl, aliases.toList, haliases, Stack.each_absorb_eq_ok.mpr (by simpa using habsorb)⟩
    refine ⟨_, _, Step.within_eq_ok.mpr ⟨_, Step.bind_eq_ok.mpr ⟨(), _, ?_, hkeys⟩, rfl⟩, hgroups⟩
    exact (each_addProvider_eq_ok rfl).mpr ⟨hnames, rfl⟩

theorem reached_started (hnames : file.providers.keys.Nodup) (aliases : ResourceSet) :
    Building.Reached file aliases.toList [] [] (file.started aliases) :=
  ⟨hnames, rfl, rfl, (List.append_nil _).symm, rfl, List.nodup_nil, Known.nil file⟩

/-- A build that succeeds has come as far as all zones of the file, built by themselves. -/
theorem reached_of_build {servers : List Server} {stack : Stack} (h : file.build servers = .ok stack) :
    ∃ aliases zones building, file.keyAliases = .ok aliases ∧ file.runs servers = zones.map .ok ∧
      building.stack = stack ∧ Building.Reached file aliases file.zoneSpecs zones building := by
  unfold build at h
  split at h
  · rename_i value building hall
    cases h
    obtain ⟨hnames, aliases, haliases, hgroups⟩ := buildAll_eq_ok.mp hall
    obtain ⟨zones, hruns, hreached⟩ :=
      Building.each_group_ok (fun _ hspec => hspec) (reached_started hnames aliases) hgroups
    exact ⟨aliases.toList, zones, building, haliases, hruns, rfl, hreached⟩
  · cases h

/-- A build that succeeds is made of the builds of its zones. -/
theorem build_ok {servers : List Server} {stack : Stack} (h : file.build servers = .ok stack) :
    ∃ aliases zones, file.keyAliases = .ok aliases ∧ file.runs servers = zones.map .ok ∧
      stack.resources.toList = aliases ++ zones.flatMap (·.resources.toList) ∧
      stack.outputs.Perm (ZoneSpec.outputs file.zoneSpecs zones) := by
  obtain ⟨aliases, zones, building, haliases, hruns, rfl, hreached⟩ := reached_of_build h
  exact ⟨aliases, zones, haliases, hruns, hreached.resources, hreached.outputs ▸ Keyed.ofList_perm hreached.distinct⟩

end DeploymentFile

namespace DeploymentFile

/-! ### Builds and runs by themselves -/

/-- Building a file and building every zone of it by the requests made of it. -/
theorem build_eq_runs (file : DeploymentFile) (servers : List Server) :
    (∀ stack, file.build servers = .ok stack →
      ∃ aliases zones, file.keyAliases = .ok aliases ∧ aliases.map Resource.path = file.signingKeys.keys ∧
        file.directRuns servers = zones.map .ok ∧
        stack.resources.toList = aliases ++ zones.flatMap (·.resources.toList) ∧
        stack.outputs.Perm (ZoneSpec.outputs file.zoneSpecs zones)) ∧
    (∀ fault, .error fault ∈ file.directRuns servers → ∃ found, file.build servers = .error found) ∧
    ∀ text deployment, Deployment.ofText text = .ok deployment →
      deployment.file.signingKeys.keys.Pairwise (· < ·) := by
  refine ⟨?_, ?_, ?_⟩
  · intro stack h
    obtain ⟨aliases, zones, haliases, hruns, hresources, houtputs⟩ := build_ok h
    rw [runs_eq_directRuns] at hruns
    exact ⟨aliases, zones, haliases, path_keyAliases haliases, hruns, hresources, houtputs⟩
  · intro fault hfault
    cases h : file.build servers with
    | error found => exact ⟨found, rfl⟩
    | ok stack =>
      obtain ⟨aliases, zones, -, hruns, -⟩ := build_ok h
      rw [← runs_eq_directRuns, hruns] at hfault
      obtain ⟨zone, -, hzone⟩ := List.mem_map.mp hfault
      cases hzone
  · intro text deployment h
    unfold Deployment.ofText at h
    split at h
    · rename_i file hread
      cases h
      obtain ⟨data, -, hread⟩ := Option.bind_eq_some_iff.mp hread
      exact signingKeys_sorted hread
    · cases h

/-- A deployment that asks for everything: two zones, and then their parent. -/
def hostingFile : DeploymentFile where
  defaults := { acmeRoot := "luffy.cx" }
  providers := [("main", { kind := .aws }), ("vb", { kind := .gandi })]
  signingKeys := [("dns-cmk", ⟨"main", "alias/dns-cmk", "0b2c8e2a"⟩)]
  groups := [
    { zones := [{ backend := .route53, name := "acme.luffy.cx", provider := "main", sign := true,
                  signingKey := some "dns-cmk", allowUsers := ["ACME"], outputZoneId := some "acme-zone" },
                { backend := .livedns, name := "lab.luffy.cx", provider := "vb" }],
      records := [{ name := "@", type := some .txt, values := .single "hello" }] },
    { zones := [{ backend := .livedns, name := "luffy.cx", provider := "vb", sign := true,
                  registrar := some { provider := "vb" } }],
      www := ["www"], mail := some ["vincent"], mailServices := true, servers := true,
      records := [{ name := "ssh", serversTag := some "web" }],
      delegations := [⟨"acme", "acme.luffy.cx"⟩, ⟨"lab", "lab.luffy.cx"⟩] }]

def hostingServers : List Server :=
  [{ name := "web.luffy.cx", ipv4 := some "203.0.113.7", ipv6 := some "2001:db8::7", tags := ["web"] }]

/-- The paths of all that it declares: the alias of its key, and then zone after zone what
the zone has by itself and what its group asks of it. -/
def hostingPaths : List String :=
  ["dns-cmk", "R53-acme.luffy.cx/zone", "R53-acme.luffy.cx/KSK", "R53-acme.luffy.cx/DNSSEC",
    "R53-acme.luffy.cx/IAM-ACME", "R53-acme.luffy.cx/IAM-ACME-policy", "R53-acme.luffy.cx/TXT-@",
    "G-lab.luffy.cx/TXT-@", "G-lab.luffy.cx/LiveDNSNS",
    "G-luffy.cx/KSK", "G-luffy.cx/LiveDNSNS", "G-luffy.cx/NS", "G-luffy.cx/NSSEC",
    -- web names
    "G-luffy.cx/A-www", "G-luffy.cx/AAAA-www", "G-luffy.cx/CAA-www", "G-luffy.cx/CNAME-_acme-challenge.www",
    -- mail and its services
    "G-luffy.cx/MX-vincent", "G-luffy.cx/MX-@", "G-luffy.cx/MX-*", "G-luffy.cx/TXT-@",
    "G-luffy.cx/CNAME-mesmtp._domainkey", "G-luffy.cx/CNAME-fm1._domainkey", "G-luffy.cx/CNAME-fm2._domainkey",
    "G-luffy.cx/CNAME-fm3._domainkey", "G-luffy.cx/TXT-_dmarc",
    "G-luffy.cx/SRV-_submission._tcp", "G-luffy.cx/SRV-_imap._tcp", "G-luffy.cx/SRV-_imaps._tcp",
    "G-luffy.cx/SRV-_carddav._tcp", "G-luffy.cx/SRV-_carddavs._tcp", "G-luffy.cx/SRV-_caldav._tcp",
    "G-luffy.cx/SRV-_caldavs._tcp",
    -- servers, records and delegations
    "G-luffy.cx/A-web", "G-luffy.cx/AAAA-web", "G-luffy.cx/A-ssh", "G-luffy.cx/AAAA-ssh",
    "G-luffy.cx/NS-acme", "G-luffy.cx/DS-acme", "G-luffy.cx/NS-lab"]

/-- Each zone has what is asked of it. With the parent before its children there is no build. -/
theorem build_eq_runs_acme :
    (∃ (stack : Stack) (aliases : List Resource) (zones : List Zone),
      hostingFile.build hostingServers = .ok stack ∧ hostingFile.directRuns hostingServers = zones.map .ok ∧
      zones.length = 3 ∧ stack.resources.toList = aliases ++ zones.flatMap (·.resources.toList) ∧
      stack.resources.toList.map Resource.path = hostingPaths ∧ stack.outputs.keys = ["acme-zone"]) ∧
    ∃ reversed fault found, reversed = { hostingFile with groups := hostingFile.groups.reverse } ∧
      .error fault ∈ reversed.directRuns hostingServers ∧ reversed.build hostingServers = .error found := by
  constructor
  · have hview : (hostingFile.build hostingServers).toOption.map (fun stack =>
        (stack.resources.toList.map Resource.path, stack.outputs.keys)) = some (hostingPaths, ["acme-zone"]) := by
      decide +kernel
    obtain ⟨stack, h, hview⟩ := Step.exists_ok_of_toOption hview
    obtain ⟨hpaths, houtputs⟩ := Prod.mk.inj hview
    obtain ⟨aliases, zones, -, -, hruns, hresources, -⟩ := (build_eq_runs hostingFile hostingServers).1 stack h
    have hlength : zones.length = 3 := by
      rw [← List.length_map Except.ok, ← hruns]
      rfl
    exact ⟨stack, aliases, zones, h, hruns, hlength, hresources, hpaths, houtputs⟩
  · let reversed : DeploymentFile := { hostingFile with groups := hostingFile.groups.reverse }
    have hrefused : (reversed.directRuns hostingServers).any (fun run => !run.toBool) = true := by decide +kernel
    obtain ⟨run, hrun, hfault⟩ := List.any_eq_true.mp hrefused
    cases run with
    | ok zone => cases hfault
    | error fault =>
      obtain ⟨found, hfound⟩ := (build_eq_runs reversed hostingServers).2.1 fault hrun
      exact ⟨reversed, fault, found, rfl, hrun, hfound⟩

/-- A signed zone on Route53, and its parent on LiveDNS. -/
def sampleFile : DeploymentFile where
  defaults := { acmeRoot := "luffy.cx" }
  providers := [("main", { kind := .aws }), ("vb", { kind := .gandi })]
  signingKeys := [("dns-cmk", ⟨"main", "alias/dns-cmk", "0b2c8e2a"⟩)]
  groups := [
    { zones := [{ backend := .route53, name := "acme.luffy.cx", provider := "main", sign := true,
                  signingKey := some "dns-cmk", allowUsers := ["ACME"], outputZoneId := some "acme-zone" }] },
    { zones := [{ backend := .livedns, name := "luffy.cx", provider := "vb", sign := true,
                  registrar := some { provider := "vb" } }],
      mail := some ["vincent"],
      delegations := [⟨"acme", "acme.luffy.cx"⟩] }]

theorem exists_build_sampleFile : ∃ stack, sampleFile.build [] = .ok stack := by
  have hok : (sampleFile.build []).toOption.map (fun _ => ()) = some () := by decide +kernel
  obtain ⟨stack, h, -⟩ := Step.exists_ok_of_toOption hok
  exact ⟨stack, h⟩

end DeploymentFile

end ZoneGraph
