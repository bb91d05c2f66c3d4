import ZoneGraph.Proofs.FirstOccurrences
import ZoneGraph.Proofs.Zone.FreePaths

/-! Mail hosting on a zone without records. Each name that takes mail has one record for it,
and six more records follow whose names are fixed. These are of other types and never in
the way, nor are those of mail services, so mail is hosted when no name is asked for twice,
counting the zone itself and the name for every other one. Else it breaks off at the first
name that is asked for again. -/
namespace ZoneGraph

namespace Bundle

/-- The record of a name that takes mail. -/
def mailExchange (name : String) : Record := ⟨name, .mx, .list mailHosts, {}⟩

/-- The records of mail hosting that do not depend on the names that take mail. -/
def mailPolicies (zone : String) : List Record :=
  ⟨apex, .txt, .single senderPolicy, {}⟩ ::
    mailSelectors.map (fun selector =>
      ⟨selector ++ "._domainkey", .cname, .single (mailKeyTarget selector zone), {}⟩) ++
    [⟨"_dmarc", .txt, .single messagePolicy, {}⟩]

theorem mailHosting_eq (zone : String) (subdomains : List String) :
    mailHosting zone subdomains = (subdomains ++ ["@", "*"]).map mailExchange ++ mailPolicies zone := by
  rw [mailHosting, List.append_assoc, List.append_assoc]
  rfl

theorem path_mailExchange_injective : Function.Injective (Record.path ∘ mailExchange) := fun _ _ hpath =>
  ((Record.path_eq_iff_of_unrouted rfl rfl).mp hpath).2

theorem nodup_path_mail_iff {names : List String} {others : List Record}
    (hothers : (others.map Record.path).Nodup) (htypes : .mx ∉ others.map Record.type) :
    ((names.map mailExchange ++ others).map Record.path).Nodup ↔ names.Nodup := by
  have hapart : ∀ path ∈ names.map (Record.path ∘ mailExchange), ∀ other ∈ others.map Record.path,
      path ≠ other := by
    intro path hpath other hother hsame
    obtain ⟨name, -, rfl⟩ := List.mem_map.mp hpath
    obtain ⟨record, hrecord, rfl⟩ := List.mem_map.mp hother
    exact htypes (List.mem_map.mpr ⟨record, hrecord, (Record.path_eq_iff.mp hsame).1.symm⟩)
  rw [List.map_append, List.map_map, List.nodup_append,
    List.nodup_map_iff path_mailExchange_injective]
  exact and_iff_left ⟨hothers, hapart⟩

theorem nodup_path_mailHosting_iff (zone : String) (subdomains : List String) :
    ((mailHosting zone subdomains).map Record.path).Nodup ↔ (subdomains ++ ["@", "*"]).Nodup := by
  have hpaths : (mailPolicies zone).map Record.path =
      ["TXT-@", "CNAME-mesmtp._domainkey", "CNAME-fm1._domainkey", "CNAME-fm2._domainkey", "CNAME-fm3._domainkey",
        "TXT-_dmarc"] := rfl
  have htypes : (mailPolicies zone).map Record.type = [.txt, .cname, .cname, .cname, .cname, .txt] := rfl
  rw [mailHosting_eq]
  exact nodup_path_mail_iff (by rw [hpaths]; decide) (by rw [htypes]; decide)

theorem mem_mailHosting {zone : String} {subdomains : List String} {record : Record}
    (h : record ∈ mailHosting zone subdomains) : record.options.routing = none ∧ record.type ≠ .srv := by
  rw [mailHosting_eq] at h
  rcases List.mem_append.mp h with h | h
  · obtain ⟨name, -, rfl⟩ := List.mem_map.mp h
    exact ⟨rfl, nofun⟩
  · simp only [mailPolicies, mailSelectors, List.map_cons, List.map_nil, List.cons_append, List.nil_append,
      List.mem_cons, List.not_mem_nil, or_false] at h
    rcases h with rfl | rfl | rfl | rfl | rfl | rfl <;> exact ⟨rfl, nofun⟩

/-- The records of mail services are for everybody, and of a type that mail hosting has none of. -/
theorem mem_mailServices {record : Record} (h : record ∈ mailServices) :
    record.options.routing = none ∧ record.type = .srv := by
  simp only [mailServices, clientServices, clientService, List.flatMap_cons, List.flatMap_nil, List.cons_append,
    List.nil_append, List.mem_cons, List.not_mem_nil, or_false] at h
  rcases h with rfl | rfl | rfl | rfl | rfl | rfl | rfl <;> exact ⟨rfl, rfl⟩

theorem path_notMem_mailHosting {zone : String} {subdomains : List String} {record : Record}
    (h : record ∈ mailServices) : record.path ∉ (mailHosting zone subdomains).map Record.path := by
  intro hpath
  obtain ⟨other, hother, hsame⟩ := List.mem_map.mp hpath
  obtain ⟨htype, -⟩ := Record.path_eq_iff.mp hsame
  exact (mem_mailHosting hother).2 (htype.trans (mem_mailServices h).2)

theorem nodup_path_mailServices : (mailServices.map Record.path).Nodup := by
  have hpaths : mailServices.map Record.path =
      ["SRV-_submission._tcp", "SRV-_imap._tcp", "SRV-_imaps._tcp", "SRV-_carddav._tcp", "SRV-_carddavs._tcp",
        "SRV-_caldav._tcp", "SRV-_caldavs._tcp"] := rfl
  rw [hpaths]
  decide

end Bundle

namespace Published

/-- The entry of a name that takes mail. -/
def mailExchange (backend : Backend) (origin : Origin) (name : String) : Published :=
  plain backend origin name .mx ["10 in1-smtp.messagingengine.com.", "20 in2-smtp.messagingengine.com."]
    origin.defaults.defaultTtl

/-- The entries of mail hosting that do not depend on the names that take mail. -/
def mailPolicies (backend : Backend) (origin : Origin) : List Published :=
  let entry (name : String) (type : RecordType) (value : String) : Published :=
    plain backend origin name type [value] origin.defaults.defaultTtl
  entry "@" .txt "v=spf1 include:spf.messagingengine.com ~all" ::
    ["mesmtp", "fm1", "fm2", "fm3"].map (fun selector =>
      entry (selector ++ "._domainkey") .cname (selector ++ "." ++ origin.name ++ ".dkim.fmhosted.com.")) ++
    [entry "_dmarc" .txt "v=DMARC1; p=none; sp=none"]

theorem map_ofRecord_mailExchange (names : List String) (zone : Zone) :
    (names.map Bundle.mailExchange).map (ofRecord · zone) = names.map (mailExchange zone.backend zone.origin) := by
  rw [List.map_map]
  exact List.map_congr_left fun name _ => ofRecord_plain ..

theorem map_ofRecord_mailPolicies (zone : Zone) :
    (Bundle.mailPolicies zone.origin.name).map (ofRecord · zone) = mailPolicies zone.backend zone.origin := by
  simp only [Bundle.mailPolicies, Values.single, List.map_append, List.map_cons, List.map_nil, List.map_map,
    Function.comp_def, ofRecord_plain]
  rfl

end Published

namespace Zone

variable {opened : Zone} {backend : Backend} {origin : Origin} {provider : Provider}

/-- Mail hosting takes no path that mail services need. -/
theorem accepts_mailServices {zone next : Zone} {name : String} {subdomains : List String}
    (hfree : ∀ record : Record, zone.pathOf record.path ∉ zone.resources.paths)
    (h : Step.each declare (Bundle.mailHosting name subdomains) zone = .ok () next) :
    Step.Accepts Call.mailServices.perform next := by
  have hpaths := paths_of_each_declare h
  obtain ⟨-, set, rfl, -⟩ := each_declare_ok h
  have hservices : Call.mailServices.perform { zone with resources := set } =
      Step.each declare Bundle.mailServices { zone with resources := set } := Call.perform_of_plan_ok rfl
  refine (Step.accepts_congr hservices).mpr (accepts_each_declare_iff.mpr
    ⟨fun record hr _ => (Bundle.mem_mailServices hr).1, Bundle.nodup_path_mailServices, ?_⟩)
  intro record hrecord htaken
  rw [hpaths, List.mem_append] at htaken
  rcases htaken with htaken | htaken
  · exact hfree record htaken
  · obtain ⟨path, hpath, hsame⟩ := List.mem_map.mp htaken
    rw [pathOf_inj.mp hsame] at hpath
    exact Bundle.path_notMem_mailHosting hrecord hpath

/-- Mail hosting breaks off at the first name that is asked for again. -/
theorem mailHosting_of_repeated {zone : Zone} {name : String} {subdomains : List String}
    (hfree : ∀ record : Record, zone.pathOf record.path ∉ zone.resources.paths)
    (hrepeats : ¬ (subdomains ++ ["@", "*"]).Nodup) :
    ∃ before repeated after next, subdomains ++ ["@", "*"] = before ++ repeated :: after ∧ before.Nodup ∧
      repeated ∈ before ∧
      Step.each declare (Bundle.mailHosting name subdomains) zone =
        .error (.duplicateResource (zone.pathOf ("MX-" ++ repeated))) next ∧
      Step.each declare (before.map Bundle.mailExchange) zone = .ok () next := by
  rw [← List.map_id (subdomains ++ ["@", "*"])] at hrepeats
  obtain ⟨before, repeated, after, hsplit, hdistinct, hrepeated⟩ := exists_first_repeated hrepeats
  rw [List.map_id] at hdistinct hrepeated
  have hrecords : Bundle.mailHosting name subdomains = before.map Bundle.mailExchange ++
      Bundle.mailExchange repeated :: (after.map Bundle.mailExchange ++ Bundle.mailPolicies name) := by
    rw [Bundle.mailHosting_eq, hsplit, List.map_append, List.map_cons, List.append_assoc, List.cons_append]
  have hpaths : ((before.map Bundle.mailExchange).map Record.path).Nodup := by
    rw [List.map_map]
    exact hdistinct.map Bundle.path_mailExchange_injective
  have htakes : ∀ other ∈ Bundle.mailHosting name subdomains, zone.takesRouting other := fun other hr _ =>
    (Bundle.mem_mailHosting hr).1
  rw [hrecords] at htakes ⊢
  obtain ⟨next, hrefused, hdeclared⟩ := each_declare_of_repeated htakes hpaths
    (List.mem_map_of_mem (List.mem_map_of_mem hrepeated)) fun other _ => hfree other
  exact ⟨before, repeated, after, next, hsplit, hdistinct, hrepeated, hrefused, hdeclared⟩

/-- Mail is hosted by a zone without records when no name is asked for twice, and then mail
services can follow. Else the first name asked for again is refused, and the names before it
take mail. -/
theorem mailHosting_end_to_end (hopen : Zone.open backend origin provider = .ok opened) (operations : List Operation)
    (hnone : (opened.run operations).records = []) (subdomains : List String) :
    let zone := opened.run operations
    let mail : Step Zone Unit := (Call.mailHosting subdomains).perform
    let services : Step Zone Unit := Call.mailServices.perform
    let names := subdomains ++ ["@", "*"]
    (Step.Accepts mail zone ↔ names.Nodup) ∧
    (∀ next, mail zone = .ok () next →
      next.records = names.map (Published.mailExchange backend origin) ++ Published.mailPolicies backend origin ∧
        Step.Accepts services next) ∧
    (∀ fault next, mail zone = .error fault next → ∃ before name after, names = before ++ name :: after ∧
      before.Nodup ∧ name ∈ before ∧
      fault = .duplicateResource (backend.pathStart ++ "-" ++ origin.name ++ "/MX-" ++ name) ∧
      next.records = before.map (Published.mailExchange backend origin)) := by
  intro zone mail services names
  have hbackend : zone.backend = backend := backend_run hopen operations
  have horigin : zone.origin = origin := origin_run hopen operations
  have hfree := path_notMem_of_records_nil hopen hnone
  have hrun : mail zone = Step.each declare (Bundle.mailHosting origin.name subdomains) zone := by
    rw [← horigin]
    exact Call.perform_of_plan_ok rfl
  have haccepts : Step.Accepts mail zone ↔ names.Nodup := by
    rw [Step.accepts_congr hrun,
      accepts_each_declare_of_free (fun record hr _ => (Bundle.mem_mailHosting hr).1) hfree]
    exact Bundle.nodup_path_mailHosting_iff origin.name subdomains
  have hexchanges : ∀ names : List String, (names.map Bundle.mailExchange).map (Published.ofRecord · zone) =
      names.map (Published.mailExchange backend origin) := by
    intro names
    rw [Published.map_ofRecord_mailExchange, hbackend, horigin]
  refine ⟨haccepts, ?_, ?_⟩
  · intro next hok
    have hdeclared := hrun.symm.trans hok
    have hpolicies := Published.map_ofRecord_mailPolicies zone
    rw [hbackend, horigin] at hpolicies
    refine ⟨?_, accepts_mailServices hfree hdeclared⟩
    rw [records_of_each_declare hdeclared, hnone, List.nil_append, Bundle.mailHosting_eq, List.map_append, hexchanges,
      hpolicies]
  · intro fault next herror
    have hrepeats := mt haccepts.mpr (Step.not_accepts_of_error herror)
    obtain ⟨before, name, after, left, hsplit, hdistinct, hrepeated, hrefused, hdeclared⟩ :=
      mailHosting_of_repeated hfree hrepeats
    rw [← hrun, herror] at hrefused
    cases hrefused
    refine ⟨before, name, after, hsplit, hdistinct, hrepeated, ?_, ?_⟩
    · have hstart : "/MX-" = "/" ++ "MX-" := rfl
      rw [pathOf_run hopen, hstart]
      simp only [String.append_assoc]
    · rw [records_of_each_declare hdeclared, hnone, List.nil_append, hexchanges]

/-- A signed zone hosts mail for one of its names and takes mail services afterwards, but does
not host mail for a name that is asked for twice. -/
theorem mailHosting_end_to_end_luffy :
    ∃ opened, Zone.open .livedns ⟨"luffy.cx", { acmeRoot := "luffy.cx" }⟩ ⟨.gandi, "vb", []⟩ = .ok opened ∧
      let zone := opened.run [.sign none, .nameservers]
      zone.records = [] ∧
      (∃ next, (Call.mailHosting ["vincent"]).perform zone = .ok () next ∧
        next.records.map (fun entry => (entry.name, entry.type, entry.values)) =
          [("vincent", .mx, ["10 in1-smtp.messagingengine.com.", "20 in2-smtp.messagingengine.com."]),
            ("@", .mx, ["10 in1-smtp.messagingengine.com.", "20 in2-smtp.messagingengine.com."]),
            ("*", .mx, ["10 in1-smtp.messagingengine.com.", "20 in2-smtp.messagingengine.com."]),
            ("@", .txt, ["\"v=spf1 include:spf.messagingengine.com ~all\""]),
            ("mesmtp._domainkey", .cname, ["mesmtp.luffy.cx.dkim.fmhosted.com."]),
            ("fm1._domainkey", .cname, ["fm1.luffy.cx.dkim.fmhosted.com."]),
            ("fm2._domainkey", .cname, ["fm2.luffy.cx.dkim.fmhosted.com."]),
            ("fm3._domainkey", .cname, ["fm3.luffy.cx.dkim.fmhosted.com."]),
            ("_dmarc", .txt, ["\"v=DMARC1; p=none; sp=none\""])] ∧
        Step.Accepts Call.mailServices.perform next) ∧
      ¬ Step.Accepts (Call.mailHosting ["vincent", "*"]).perform zone := by
  have heval : (Zone.open .livedns ⟨"luffy.cx", { acmeRoot := "luffy.cx" }⟩ ⟨.gandi, "vb", []⟩).toOption.map
      (fun opened => (opened.run [.sign none, .nameservers]).records) = some [] := by
    decide +kernel
  obtain ⟨opened, hopen, hnone⟩ := Step.exists_ok_of_toOption heval
  obtain ⟨haccepts, hpublishes, -⟩ := mailHosting_end_to_end hopen [.sign none, .nameservers] hnone ["vincent"]
  obtain ⟨hrefuses, -, -⟩ := mailHosting_end_to_end hopen [.sign none, .nameservers] hnone ["vincent", "*"]
  refine ⟨opened, hopen, hnone, ?_, mt hrefuses.mp (by decide)⟩
  obtain ⟨⟨⟩, next, hrun⟩ := haccepts.mpr (by decide)
  obtain ⟨hrecords, hservices⟩ := hpublishes next hrun
  refine ⟨next, hrun, ?_, hservices⟩
  rw [hrecords]
  decide +kernel

end Zone

end ZoneGraph
