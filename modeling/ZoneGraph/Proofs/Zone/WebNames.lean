import ZoneGraph.Proofs.Bundle.ProtectedDomain
import ZoneGraph.Proofs.FirstOccurrences
import ZoneGraph.Proofs.Zone.WebHosting

/-! Web names that live together on LiveDNS. A web name has an address record for each family
at the name, the record of its issuers at the name without its star, and its challenge below
that. Addresses collide when the names are the same, issuers and challenges when the names
are the same without their stars, and records of different types never do. So on a zone
without records web names live together when no two protect one domain. -/
namespace ZoneGraph

open AcmePolicy (withoutStar)

namespace Bundle

variable {origin : Origin} {servers : List Server} {name other : String} {record : Record}

/-- The records of a web name that is answered alike for everybody. -/
def web (origin : Origin) (servers : List Server) (name : String) : List Record :=
  addresses name (servers.filter Server.servesWeb) { ttl := some origin.defaults.webTtl } ++ certificates origin name

theorem plan_webHosting (origin : Origin) (servers : List Server) (name : String) :
    (Call.webHosting name servers {}).plan .alike origin = .ok (web origin servers name) := by
  rw [web, ← BundleRequest.map_server_webServers]
  rfl

/-- Where the record of a type stands for a web name. -/
def webPlace (origin : Origin) (name : String) : RecordType → String
  | .caa => withoutStar name
  | .cname => (AcmePolicy.ofName origin.name origin.defaults.acmeRoot name).challengeName
  | _ => name

theorem mem_web (h : record ∈ web origin servers name) :
    record.options.routing = none ∧ record.name = webPlace origin name record.type := by
  rcases List.mem_append.mp h with h | h
  · obtain ⟨hname, hoptions, htype⟩ := mem_addresses h
    rw [hname, hoptions]
    rcases List.mem_pair.mp htype with htype | htype <;> exact ⟨rfl, by rw [htype]; rfl⟩
  · rw [certificates, List.mem_pair] at h
    rcases h with rfl | rfl
    · exact ⟨rfl, AcmePolicy.caaName_ofName ..⟩
    · exact ⟨rfl, rfl⟩

theorem withoutStar_eq_of_webPlace {type : RecordType} (h : webPlace origin name type = webPlace origin other type) :
    withoutStar name = withoutStar other := by
  cases type with
  | caa => exact h
  | cname => exact AcmePolicy.withoutStar_eq_of_challengeName h
  | a | aaaa | ds | mx | ns | srv | txt => exact congrArg withoutStar h

/-- Web names with records at one path are one name without their stars. -/
theorem withoutStar_eq_of_path {shared : Record} (h : record ∈ web origin servers name)
    (h' : shared ∈ web origin servers other) (hpath : record.path = shared.path) :
    withoutStar name = withoutStar other := by
  obtain ⟨hrouting, hplace⟩ := mem_web h
  obtain ⟨hrouting', hplace'⟩ := mem_web h'
  obtain ⟨htype, hname⟩ := (Record.path_eq_iff_of_unrouted hrouting hrouting').mp hpath
  rw [hplace, hplace', htype] at hname
  exact withoutStar_eq_of_webPlace hname

/-- The record of the issuers is the same for names that are one without their stars. -/
theorem path_issuers_mem (origin : Origin) (servers : List Server) (name : String) :
    "CAA-" ++ withoutStar name ∈ (web origin servers name).map Record.path := by
  rw [← AcmePolicy.caaName_ofName origin.name origin.defaults.acmeRoot name]
  refine List.mem_map.mpr ⟨_, List.mem_append_right _ (List.mem_cons_self ..), rfl⟩

theorem disjoint_path_web_iff (origin : Origin) (servers : List Server) (name other : String) :
    ((web origin servers name).map Record.path).Disjoint ((web origin servers other).map Record.path) ↔
      withoutStar name ≠ withoutStar other := by
  constructor
  · intro h hsame
    have hissuers := path_issuers_mem origin servers other
    rw [← hsame] at hissuers
    exact h (path_issuers_mem origin servers name) hissuers
  · intro h path hpath hpath'
    obtain ⟨record, hrecord, rfl⟩ := List.mem_map.mp hpath
    obtain ⟨shared, hshared, hsame⟩ := List.mem_map.mp hpath'
    exact h (withoutStar_eq_of_path hrecord hshared hsame.symm)

theorem nodup_path_web_one (origin : Origin) (servers : List Server) (name : String) :
    ((web origin servers name).map Record.path).Nodup := by
  apply Record.nodup_path_of_types
  unfold web addresses family certificates
  split <;> split <;> simp

/-- The records of web names lie at paths of their own when the names without their stars
are distinct. -/
theorem nodup_path_webNames_iff (origin : Origin) (servers : List Server) (names : List String) :
    ((names.flatMap (web origin servers)).map Record.path).Nodup ↔ (names.map withoutStar).Nodup := by
  rw [List.map_flatMap, List.nodup_flatMap, and_iff_right fun name _ => nodup_path_web_one origin servers name,
    List.Nodup, List.pairwise_map]
  exact List.Pairwise.iff fun name other => disjoint_path_web_iff origin servers name other

end Bundle

namespace Published

/-- The path that the record of an entry has on LiveDNS. -/
def livednsPath (entry : Published) : String :=
  "G-" ++ entry.zone ++ "/" ++ entry.type.name ++ "-" ++ entry.name

/-- The entries of a web name on LiveDNS: the addresses of the enabled servers tagged for
the web, the issuers, and the challenge. A family without an address has no entry. -/
def webEntries (origin : Origin) (servers : List Server) (name : String) : List Published :=
  let web := servers.filter fun server => !server.disabled && decide ("web" ∈ server.tags)
  let ipv4 := web.filterMap (·.ipv4)
  let ipv6 := web.filterMap (·.ipv6)
  let policy := AcmePolicy.ofName origin.name origin.defaults.acmeRoot name
  (if ipv4 = [] then [] else [plain .livedns origin name .a ipv4 origin.defaults.webTtl]) ++
    (if ipv6 = [] then [] else [plain .livedns origin name .aaaa ipv6 origin.defaults.webTtl]) ++
    [plain .livedns origin (withoutStar name) .caa policy.caaValues origin.defaults.defaultTtl,
      plain .livedns origin policy.challengeName .cname [policy.challengeTarget] origin.defaults.defaultTtl]

variable {zone : Zone}

theorem livednsPath_ofRecord (hbackend : zone.backend = .livedns) {record : Record}
    (hrecord : record.options.routing = none) : (ofRecord record zone).livednsPath = zone.pathOf record.path := by
  have hstart : zone.path = "G-" ++ zone.name := by
    rw [Zone.path, hbackend]
    rfl
  rw [livednsPath, ofRecord, hbackend, Zone.pathOf, hstart, Record.path, hrecord]
  simp only [String.append_assoc]

theorem map_ofRecord_web (hbackend : zone.backend = .livedns) (servers : List Server) (name : String) :
    (Bundle.web zone.origin servers name).map (ofRecord · zone) = webEntries zone.origin servers name := by
  have hfamily : ∀ (type : RecordType) (values : List String),
      (Bundle.family name type values { ttl := some zone.origin.defaults.webTtl }).map (ofRecord · zone) =
        if values = [] then [] else [plain .livedns zone.origin name type values zone.origin.defaults.webTtl] := by
    intro type values
    cases values with
    | nil => rfl
    | cons value rest =>
      rw [← hbackend]
      exact congrArg ([·]) (ofRecord_plain ..)
  rw [Bundle.web, Bundle.addresses, List.map_append, List.map_append, hfamily, hfamily, Bundle.certificates,
    List.map_cons, List.map_singleton, AcmePolicy.caaName_ofName, Values.single, ofRecord_plain, ofRecord_plain,
    hbackend]
  rfl

end Published

namespace Zone

variable {opened : Zone} {origin : Origin} {provider : Provider}

/-- Records that are for everybody are published on LiveDNS up to the first path that is needed
twice. There the path of a record can be read off its entry. -/
theorem published_before_repeated {zone : Zone} {records : List Record} (hbackend : zone.backend = .livedns)
    (hrouting : ∀ record ∈ records, record.options.routing = none)
    (hfree : ∀ record ∈ records, zone.pathOf record.path ∉ zone.resources.paths)
    (hrepeats : ¬ (records.map Record.path).Nodup) :
    ∃ before entry after next, records.map (Published.ofRecord · zone) = before ++ entry :: after ∧
      (before.map Published.livednsPath).Nodup ∧ entry.livednsPath ∈ before.map Published.livednsPath ∧
      Step.each declare records zone = .error (.duplicateResource entry.livednsPath) next ∧
      next.records = zone.records ++ before := by
  obtain ⟨before, record, after, rfl, hdistinct, hrepeated⟩ := exists_first_repeated hrepeats
  obtain ⟨hbefore, hrest⟩ := List.forall_mem_append.mp hrouting
  obtain ⟨next, hrefused, hdeclared⟩ := each_declare_of_repeated (fun other hr _ => hrouting other hr) hdistinct
    hrepeated (List.forall_mem_append.mp hfree).1
  have hpath := Published.livednsPath_ofRecord hbackend (List.forall_mem_cons.mp hrest).1
  have hpaths : (before.map (Published.ofRecord · zone)).map Published.livednsPath =
      (before.map Record.path).map zone.pathOf := by
    rw [List.map_map, List.map_map]
    exact List.map_congr_left fun other hr => Published.livednsPath_ofRecord hbackend (hbefore other hr)
  refine ⟨before.map (Published.ofRecord · zone), Published.ofRecord record zone,
    after.map (Published.ofRecord · zone), next, ?_, ?_, ?_, ?_, records_of_each_declare hdeclared⟩
  · rw [List.map_append, List.map_cons]
  · rw [hpaths]
    exact hdistinct.map fun _ _ => pathOf_inj.mp
  · rw [hpaths, hpath]
    exact List.mem_map_of_mem hrepeated
  · rw [hpath, hrefused]

/-- Web names are taken by a LiveDNS zone without records when they are distinct without
their stars. They are published name after name, and the first path that is needed twice is
refused. -/
theorem webNames_live_together (hopen : Zone.open .livedns origin provider = .ok opened) (operations : List Operation)
    (hnone : (opened.run operations).records = []) (servers : List Server) (names : List String) :
    let zone := opened.run operations
    let www : Step Zone Unit := Step.each Call.perform (names.map fun name => .webHosting name servers {})
    let entries := names.flatMap (Published.webEntries origin servers)
    (Step.Accepts www zone ↔ (names.map withoutStar).Nodup) ∧
    (∀ next, www zone = .ok () next → next.records = entries) ∧
    (∀ fault next, www zone = .error fault next → ∃ before entry after, entries = before ++ entry :: after ∧
      (before.map Published.livednsPath).Nodup ∧ entry.livednsPath ∈ before.map Published.livednsPath ∧
      fault = .duplicateResource entry.livednsPath ∧ next.records = before) := by
  intro zone www entries
  have hbackend : zone.backend = .livedns := backend_run hopen operations
  have horigin : zone.origin = origin := origin_run hopen operations
  have hfree := path_notMem_of_records_nil hopen hnone
  let records := names.flatMap (Bundle.web origin servers)
  have hrun : www zone = Step.each declare records zone := by
    apply Call.each_perform_of_planAll
    rw [hbackend, horigin]
    exact Call.planAll_map (Bundle.plan_webHosting origin servers) names
  have hrouting : ∀ record ∈ records, record.options.routing = none := by
    intro record hrecord
    obtain ⟨name, -, hweb⟩ := List.mem_flatMap.mp hrecord
    exact (Bundle.mem_web hweb).1
  have hentries : records.map (Published.ofRecord · zone) = entries := by
    have hname := Published.map_ofRecord_web hbackend servers
    rw [horigin] at hname
    rw [List.map_flatMap]
    exact List.flatMap_congr fun name _ => hname name
  have haccepts : Step.Accepts www zone ↔ (records.map Record.path).Nodup := by
    rw [Step.accepts_congr hrun]
    exact accepts_each_declare_of_free (fun record hr _ => hrouting record hr) hfree
  refine ⟨haccepts.trans (Bundle.nodup_path_webNames_iff origin servers names), ?_, ?_⟩
  · intro next hok
    rw [records_of_each_declare (hrun.symm.trans hok), hnone, List.nil_append, hentries]
  · intro fault next herror
    have hrepeats := mt haccepts.mpr (Step.not_accepts_of_error herror)
    obtain ⟨before, entry, after, left, hsplit, hdistinct, hrepeated, hrefused, hleft⟩ :=
      published_before_repeated hbackend hrouting (fun record _ => hfree record) hrepeats
    rw [← hrun, herror] at hrefused
    cases hrefused
    rw [hentries] at hsplit
    rw [hnone, List.nil_append] at hleft
    exact ⟨before, entry, after, hsplit, hdistinct, hrepeated, rfl, hleft⟩

/-- A signed zone takes the apex and a wildcard name together, but not a name and its wildcard. -/
theorem webNames_live_together_luffy :
    ∃ opened, Zone.open .livedns ⟨"luffy.cx", { acmeRoot := "luffy.cx" }⟩ ⟨.gandi, "vb", []⟩ = .ok opened ∧
      let zone := opened.run [.sign none, .nameservers]
      zone.records = [] ∧
      (∃ next, Step.each Call.perform [.webHosting "@" europeanServers {}, .webHosting "*.eu" europeanServers {}] zone =
          .ok () next ∧
        next.records.map sketch = [("@", .a, ["192.0.2.3", "192.0.2.4"], none), ("@", .aaaa, ["2001:db8::3"], none),
          ("@", .caa, ["0 issue \"letsencrypt.org\"", "0 issuewild \";\""], none),
          ("_acme-challenge", .cname, ["luffy.cx.acme.luffy.cx."], none),
          ("*.eu", .a, ["192.0.2.3", "192.0.2.4"], none), ("*.eu", .aaaa, ["2001:db8::3"], none),
          ("eu", .caa, ["0 issue \"letsencrypt.org\"", "0 issuewild \"letsencrypt\""], none),
          ("_acme-challenge.eu", .cname, ["eu.luffy.cx.acme.luffy.cx."], none)]) ∧
      ¬ Step.Accepts (Step.each Call.perform [.webHosting "eu" [] {}, .webHosting "*.eu" [] {}]) zone := by
  have heval : (Zone.open .livedns ⟨"luffy.cx", { acmeRoot := "luffy.cx" }⟩ ⟨.gandi, "vb", []⟩).toOption.map
      (fun opened => (opened.run [.sign none, .nameservers]).records) = some [] := by
    decide +kernel
  obtain ⟨opened, hopen, hnone⟩ := Step.exists_ok_of_toOption heval
  obtain ⟨haccepts, hpublishes, -⟩ :=
    webNames_live_together hopen [.sign none, .nameservers] hnone europeanServers ["@", "*.eu"]
  obtain ⟨hrefuses, -, -⟩ := webNames_live_together hopen [.sign none, .nameservers] hnone [] ["eu", "*.eu"]
  refine ⟨opened, hopen, hnone, ?_, mt hrefuses.mp (by decide +kernel)⟩
  obtain ⟨⟨⟩, next, hrun⟩ := haccepts.mpr (by decide +kernel)
  refine ⟨next, hrun, ?_⟩
  rw [hpublishes next hrun]
  decide +kernel

end Zone

end ZoneGraph
