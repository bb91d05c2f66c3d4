import ZoneGraph.Proofs.Zone.FreePaths

/-! Which records exclude each other on LiveDNS. A routed record is refused there whatever
was declared before, so the path of a record is its type and its name, and both can be told
from it. A record that is not routed is refused when one of its type and name was declared
since resources were last taken, and for no other reason: keys, look-ups and registrations
lie at paths that no record has. -/
namespace ZoneGraph.Zone

variable {zone opened : Zone} {origin : Origin} {provider : Provider} {record : Record} {resource : Resource}
  {operation : Operation}

/-! ### Records and other resources -/

theorem Operation.Adds.path_ne_record (h : operation.Adds zone resource) (hkind : resource.kind.isRecord = false)
    (record : Record) : resource.path ≠ zone.pathOf record.path := by
  have hother : ∀ {id : String}, '-' ∉ id.toList → zone.pathOf id ≠ zone.pathOf record.path :=
    fun hid hpath => Record.path_ne_of_hyphen_notMem hid (pathOf_inj.mp hpath).symm
  cases h with
  | record _ _ declared =>
    rw [isRecord_recordResource] at hkind
    cases hkind
  | livednsKey | hostedZoneKey | hostedZoneSigning | lookup | registeredNameservers | registeredKey =>
    exact hother (by decide)
  | user _ name => exact fun hpath => record.path_ne_user name (pathOf_inj.mp hpath).symm
  | userPolicy _ name =>
    intro hpath
    exact record.path_ne_user (name ++ "-policy") ((pathOf_inj.mp hpath).symm.trans (String.append_assoc ..))

/-- No resource that a LiveDNS zone holds lies where a record would, unless it is one. -/
theorem path_ne_record_run (hopen : Zone.open .livedns origin provider = .ok opened) {operations : List Operation}
    (hr : resource ∈ (opened.run operations).resources.toList) (hkind : resource.kind.isRecord = false)
    (record : Record) : resource.path ≠ (opened.run operations).pathOf record.path := by
  rcases mem_resources_run (consistent_open hopen) hr with ⟨-, hfirst⟩ | ⟨before, operation, later, -, -, hadds⟩
  · obtain ⟨-, -, -, -, -, hresources⟩ := open_eq_ok hopen
    rw [hresources] at hfirst
    cases hfirst
  · rw [pathOf_run hopen, ← pathOf_run hopen before]
    exact hadds.path_ne_record hkind record

/-! ### Records and earlier records -/

theorem declares_iff_of_livedns (hbackend : zone.backend = .livedns) (hrecord : record.options.routing = none) :
    operation.Declares record zone ↔
      ∃ other ∈ operation.declared zone, other.type = record.type ∧ other.name = record.name := by
  refine exists_congr fun other => and_congr_right fun hother => ?_
  exact Record.path_eq_iff_of_unrouted (takesRouting_of_mem_declared hother hbackend) hrecord

/-- The path of a record that is not routed is free unless one of its type and name was
declared since resources were last taken. -/
theorem path_mem_run_iff_of_livedns (hopen : Zone.open .livedns origin provider = .ok opened)
    (operations : List Operation) (hrecord : record.options.routing = none) :
    (opened.run operations).pathOf record.path ∈ (opened.run operations).resources.paths ↔
      SinceTake (fun operation zone => ∃ other ∈ operation.declared zone,
        other.type = record.type ∧ other.name = record.name) opened operations := by
  rw [declared_run hopen]
  constructor
  · rintro ⟨before, operation, later, hsplit, htake, hdeclares⟩
    exact ⟨before, operation, later, hsplit, htake,
      (declares_iff_of_livedns (backend_run hopen before) hrecord).mp hdeclares⟩
  · rintro ⟨before, operation, later, hsplit, htake, hdeclares⟩
    exact ⟨before, operation, later, hsplit, htake,
      (declares_iff_of_livedns (backend_run hopen before) hrecord).mpr hdeclares⟩

theorem declare_of_routed (hbackend : zone.backend = .livedns) (hrecord : record.options.routing ≠ none) :
    declare record zone = .error (.unsupportedRouting zone.name) zone :=
  declare_eq_error.mpr ⟨rfl, Or.inl ⟨fun htakes => hrecord (htakes hbackend), rfl⟩⟩

/-- The key, the look-up and what is registered lie at four paths that no record has. -/
theorem path_ne_structural (record : Record) (zone : Zone) (registrar : Provider) (servers : Nameservers)
    (key : SigningKey) :
    zone.pathOf record.path ∉ [zone.livednsKey, zone.lookupResource, zone.registeredNameservers registrar servers,
      zone.registeredKey registrar key].map Resource.path := by
  have hpaths : [zone.livednsKey, zone.lookupResource, zone.registeredNameservers registrar servers,
      zone.registeredKey registrar key].map Resource.path =
        ["KSK", "LiveDNSNS", "NS", "NSSEC"].map zone.pathOf := rfl
  have hhyphen : ∀ id ∈ ["KSK", "LiveDNSNS", "NS", "NSSEC"], '-' ∉ id.toList := by decide
  rw [hpaths, List.mem_map]
  rintro ⟨id, hid, hpath⟩
  exact Record.path_ne_of_hyphen_notMem (hhyphen id hid) (pathOf_inj.mp hpath).symm

/-- A record on LiveDNS is refused if it is routed, else if one of its type and name was
declared since resources were last taken, and else it is added to the zone as one resource.
A refusal changes nothing, and no resource that is not a record is ever in the way. -/
theorem declare_by_type_and_name (hopen : Zone.open .livedns origin provider = .ok opened)
    (operations : List Operation) (record : Record) :
    let zone := opened.run operations
    let taken := SinceTake (fun operation zone => ∃ other ∈ operation.declared zone,
      other.type = record.type ∧ other.name = record.name) opened operations
    let path := "G-" ++ origin.name ++ "/" ++ record.type.name ++ "-" ++ record.name
    (record.options.routing ≠ none → declare record zone = .error (.unsupportedRouting origin.name) zone) ∧
    (record.options.routing = none → taken → declare record zone = .error (.duplicateResource path) zone) ∧
    (record.options.routing = none → ¬ taken → ∃ set, declare record zone = .ok () { zone with resources := set } ∧
      set.toList = zone.resources.toList ++ [zone.livednsRecord record]) ∧
    (record.options.routing = none →
      (∀ resource ∈ zone.resources.toList, resource.kind.isRecord = false → resource.path ≠ path) ∧
      ∀ registrar servers key, path ∉ [zone.livednsKey, zone.lookupResource,
        zone.registeredNameservers registrar servers, zone.registeredKey registrar key].map Resource.path) := by
  intro zone taken path
  have hbackend : zone.backend = .livedns := backend_run hopen operations
  have hname : zone.name = origin.name := congrArg Origin.name (origin_run hopen operations)
  have hpath : record.options.routing = none → zone.pathOf record.path = path := by
    intro hrecord
    have hstart : "G-" ++ origin.name = Backend.livedns.pathStart ++ "-" ++ origin.name := rfl
    rw [pathOf_run hopen, Record.path, hrecord]
    simp only [path, hstart, String.append_assoc]
  have htaken : record.options.routing = none → (zone.pathOf record.path ∈ zone.resources.paths ↔ taken) :=
    path_mem_run_iff_of_livedns hopen operations
  refine ⟨?_, ?_, ?_, ?_⟩
  · intro hrecord
    rw [← hname]
    exact declare_of_routed hbackend hrecord
  · intro hrecord hsince
    have held := (htaken hrecord).mpr hsince
    rw [← hpath hrecord]
    rw [← path_recordResource] at held ⊢
    exact declare_eq_error.mpr ⟨rfl, Or.inr ⟨fun _ => hrecord, held, rfl⟩⟩
  · intro hrecord hsince
    have fresh := mt (htaken hrecord).mp hsince
    rw [← path_recordResource] at fresh
    refine ⟨zone.resources.append _ fresh, declare_eq_ok.mpr ⟨fun _ => hrecord, fresh, rfl⟩, ?_⟩
    rw [ResourceSet.toList_append, recordResource_of_livedns hbackend]
  · intro hrecord
    rw [← hpath hrecord]
    exact ⟨fun resource hr hkind => path_ne_record_run hopen hr hkind record, path_ne_structural record zone⟩

def addressRecord : Record := ⟨"www", .a, .single "192.0.2.3", {}⟩

/-- Another address is refused under that name, after signing and a look-up as well, until
resources are taken. -/
theorem declare_by_type_and_name_www :
    ∃ opened, Zone.open .livedns ⟨"luffy.cx", { acmeRoot := "luffy.cx" }⟩ ⟨.gandi, "vb", []⟩ = .ok opened ∧
      let operations := [.call (.record addressRecord), .sign none, .nameservers]
      let other : Record := ⟨"www", .a, .single "192.0.2.4", {}⟩
      declare other (opened.run operations) = .error (.duplicateResource "G-luffy.cx/A-www") (opened.run operations) ∧
        Step.Accepts (declare other) (opened.run (operations ++ [.take])) := by
  have heval : (Zone.open .livedns ⟨"luffy.cx", { acmeRoot := "luffy.cx" }⟩ ⟨.gandi, "vb", []⟩).toOption.map
      (Operation.declared (.call (.record addressRecord))) = some [addressRecord] := by
    decide +kernel
  obtain ⟨opened, hopen, hlist⟩ := Step.exists_ok_of_toOption heval
  have hdeclared : addressRecord ∈ (Operation.call (.record addressRecord)).declared opened := by
    rw [hlist]
    exact List.mem_singleton_self _
  refine ⟨opened, hopen, ?_⟩
  intro operations other
  obtain ⟨-, hrefused, -⟩ := declare_by_type_and_name hopen operations other
  obtain ⟨-, -, hadded, -⟩ := declare_by_type_and_name hopen (operations ++ [.take]) other
  refine ⟨hrefused rfl ⟨[], _, _, rfl, by simp, addressRecord, hdeclared, rfl, rfl⟩, ?_⟩
  obtain ⟨set, hok, -⟩ := hadded rfl (by simp [sinceTake_concat, Operation.declared])
  exact ⟨(), _, hok⟩

end ZoneGraph.Zone
