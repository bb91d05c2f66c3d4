import ZoneGraph.Proofs.Resource.Attributes
import ZoneGraph.Proofs.Runs
import ZoneGraph.Zone

/-! What declarations do to a zone. A declaration adds one resource at the end, or it
is refused and leaves the zone as it was; nothing else of the zone changes. A run of
calls declares the records of their plans in order, and a zone's plans do not depend
on what it has declared. -/
namespace ZoneGraph

namespace ResourceSet

@[simp] theorem toList_empty : empty.toList = [] := rfl

@[simp] theorem toList_append (set : ResourceSet) (resource : Resource) (fresh : resource.path ∉ set.paths) :
    (set.append resource fresh).toList = set.toList ++ [resource] := rfl

theorem paths_of_toList {set next : ResourceSet} {added : List Resource} (h : next.toList = set.toList ++ added) :
    next.paths = set.paths ++ added.map Resource.path := by
  rw [paths, h, List.map_append, paths]

theorem paths_append (set : ResourceSet) (resource : Resource) (fresh : resource.path ∉ set.paths) :
    (set.append resource fresh).paths = set.paths ++ [resource.path] :=
  paths_of_toList (toList_append set resource fresh)

theorem push_eq_ok {resource : Resource} {set next : ResourceSet} :
    push resource set = .ok () next ↔ ∃ fresh, next = set.append resource fresh := by
  unfold push
  split
  · simp_all
  · rename_i fresh
    simp [fresh, eq_comm]

theorem push_eq_error {resource : Resource} {set next : ResourceSet} {fault : Fault} :
    push resource set = .error fault next ↔
      resource.path ∈ set.paths ∧ fault = .duplicateResource resource.path ∧ next = set := by
  unfold push
  split
  · rename_i taken
    simp [taken, eq_comm]
  · simp_all

end ResourceSet

namespace Zone

theorem emit_eq_ok {resource : Resource} {zone next : Zone} :
    emit resource zone = .ok () next ↔
      ∃ fresh, next = { zone with resources := zone.resources.append resource fresh } := by
  rw [emit, Step.within_eq_ok]
  constructor
  · rintro ⟨set, hpush, rfl⟩
    obtain ⟨fresh, rfl⟩ := ResourceSet.push_eq_ok.mp hpush
    exact ⟨fresh, rfl⟩
  · rintro ⟨fresh, rfl⟩
    exact ⟨_, ResourceSet.push_eq_ok.mpr ⟨fresh, rfl⟩, rfl⟩

theorem emit_eq_error {resource : Resource} {zone next : Zone} {fault : Fault} :
    emit resource zone = .error fault next ↔
      resource.path ∈ zone.resources.paths ∧ fault = .duplicateResource resource.path ∧ next = zone := by
  rw [emit, Step.within_eq_error]
  constructor
  · rintro ⟨set, hpush, rfl⟩
    obtain ⟨taken, rfl, rfl⟩ := ResourceSet.push_eq_error.mp hpush
    exact ⟨taken, rfl, rfl⟩
  · rintro ⟨taken, rfl, rfl⟩
    exact ⟨_, ResourceSet.push_eq_error.mpr ⟨taken, rfl, rfl⟩, rfl⟩

theorem after_emit_of_fresh {resource : Resource} {zone : Zone} (fresh : resource.path ∉ zone.resources.paths) :
    Step.after (emit resource) zone = { zone with resources := zone.resources.append resource fresh } :=
  Step.after_of_ok (emit_eq_ok.mpr ⟨fresh, rfl⟩)

/-! ### Opening -/

/-- A zone that was opened has declared nothing, or only its hosted zone. -/
theorem open_eq_ok {backend : Backend} {origin : Origin} {provider : Provider} {zone : Zone}
    (h : Zone.open backend origin provider = .ok zone) :
    zone.backend = backend ∧ zone.origin = origin ∧ zone.provider = provider ∧ zone.lookup = none ∧
      zone.key = none ∧ zone.resources.toList = if backend = .route53 then [zone.hostedZone] else [] := by
  unfold Zone.open at h
  cases hparse : DomainName.parseZone origin.name with
  | error fault => simp [hparse] at h
  | ok name =>
    simp only [hparse] at h
    split at h
    · cases backend with
      | livedns =>
        cases h
        simp
      | route53 =>
        rw [after_emit_of_fresh (by simp [ResourceSet.paths])] at h
        cases h
        simp [hostedZone]
        rfl
    · cases h

theorem exists_open {backend : Backend} {origin : Origin} {provider : Provider}
    (hname : (DomainName.parseZone origin.name).toBool = true) (hkind : provider.kind = backend.providerKind) :
    ∃ zone, Zone.open backend origin provider = .ok zone := by
  unfold Zone.open
  cases hparse : DomainName.parseZone origin.name with
  | error fault => simp [hparse, Except.toBool] at hname
  | ok parsed =>
    rw [dif_pos hkind]
    cases backend with
    | livedns => exact ⟨_, rfl⟩
    | route53 => exact ⟨_, rfl⟩

/-! ### Records -/

section Routing
variable (resource : Resource) (routing : Option RoutingSelector)

@[simp] theorem kind_addRouting : (addRouting resource routing).kind = resource.kind := by
  cases routing <;> rfl

@[simp] theorem path_addRouting : (addRouting resource routing).path = resource.path := by
  cases routing <;> rfl

@[simp] theorem provider_addRouting : (addRouting resource routing).provider = resource.provider := by
  cases routing <;> rfl

@[simp] theorem zone_addRouting : (addRouting resource routing).zone = resource.zone := by
  cases routing <;> rfl

@[simp] theorem dependsOn_addRouting : (addRouting resource routing).dependsOn = resource.dependsOn := by
  cases routing <;> rfl

/-- Routing puts two attributes and leaves the others alone. -/
@[simp] theorem find?_addRouting {key : String} (hid : key ≠ "set_identifier")
    (hpolicy : key ≠ "geolocation_routing_policy") :
    Keyed.find? key (addRouting resource routing).attributes = Keyed.find? key resource.attributes := by
  cases routing with
  | none => rfl
  | some routing => simp [addRouting, Ne.symm hid, Ne.symm hpolicy]

@[simp] theorem text?_addRouting {key : String} (hid : key ≠ "set_identifier")
    (hpolicy : key ≠ "geolocation_routing_policy") :
    (addRouting resource routing).text? key = resource.text? key := by
  rw [Resource.text?, find?_addRouting resource routing hid hpolicy, Resource.text?]

end Routing

/-- The resource that a record becomes on the zone's backend. -/
def recordResource (record : Record) (zone : Zone) : Resource :=
  match zone.backend with
  | .livedns => zone.livednsRecord record
  | .route53 => zone.route53Record record

theorem recordResource_of_livedns {zone : Zone} (h : zone.backend = .livedns) (record : Record) :
    zone.recordResource record = zone.livednsRecord record := by
  rw [recordResource, h]

theorem recordResource_of_route53 {zone : Zone} (h : zone.backend = .route53) (record : Record) :
    zone.recordResource record = zone.route53Record record := by
  rw [recordResource, h]

theorem isRecord_recordResource (record : Record) (zone : Zone) :
    (zone.recordResource record).kind.isRecord = true := by
  unfold recordResource
  split
  · rfl
  · rw [route53Record, kind_addRouting]
    rfl

/-- Whether a backend takes records with the routing of this one. -/
def takesRouting (record : Record) (zone : Zone) : Prop :=
  zone.backend = .livedns → record.options.routing = none

theorem declare_eq_ok {record : Record} {zone next : Zone} :
    declare record zone = .ok () next ↔
      zone.takesRouting record ∧
        ∃ fresh, next = { zone with resources := zone.resources.append (zone.recordResource record) fresh } := by
  rw [← emit_eq_ok]
  unfold declare takesRouting recordResource
  cases hb : zone.backend with
  | route53 => simp
  | livedns => cases record.options.routing <;> simp

/-- A record is refused for its routing, or because its path is taken. -/
theorem declare_eq_error {record : Record} {zone next : Zone} {fault : Fault} :
    declare record zone = .error fault next ↔ next = zone ∧
      ((¬ zone.takesRouting record ∧ fault = .unsupportedRouting zone.name) ∨
        (zone.takesRouting record ∧ (zone.recordResource record).path ∈ zone.resources.paths ∧
          fault = .duplicateResource (zone.recordResource record).path)) := by
  have hemit : emit (zone.recordResource record) zone = .error fault next ↔
      (zone.recordResource record).path ∈ zone.resources.paths ∧
        fault = .duplicateResource (zone.recordResource record).path ∧ next = zone := emit_eq_error
  unfold declare takesRouting
  unfold recordResource at hemit ⊢
  cases hb : zone.backend with
  | route53 =>
    simp only [hb] at hemit ⊢
    rw [hemit]
    simp [and_left_comm, and_comm]
  | livedns =>
    simp only [hb] at hemit ⊢
    cases record.options.routing with
    | none =>
      simp only [Option.isSome_none, Bool.false_eq_true, if_false]
      rw [hemit]
      simp [and_left_comm, and_comm]
    | some routing => simp [eq_comm, and_comm]

/-- Declarations that succeed add a resource for each record, in order. -/
theorem each_declare_ok {records : List Record} {zone next : Zone}
    (h : Step.each declare records zone = .ok () next) :
    (∀ record ∈ records, zone.takesRouting record) ∧
      ∃ set, next = { zone with resources := set } ∧
        set.toList = zone.resources.toList ++ records.map zone.recordResource := by
  induction records generalizing zone with
  | nil =>
    cases h
    exact ⟨by simp, next.resources, rfl, by simp⟩
  | cons record rest ih =>
    obtain ⟨⟨⟩, between, hd, hrest⟩ := Step.bind_eq_ok.mp h
    obtain ⟨htakes, fresh, rfl⟩ := declare_eq_ok.mp hd
    obtain ⟨hall, set, rfl, hset⟩ := ih hrest
    refine ⟨List.forall_mem_cons.mpr ⟨htakes, hall⟩, set, rfl, ?_⟩
    rw [hset, ResourceSet.toList_append, List.append_assoc]
    rfl

end Zone

/-! ### Calls -/

namespace Call

def planAll (answering : Answering) (origin : Origin) : List Call → Except Fault (List Record)
  | [] => .ok []
  | call :: rest => do
    let records ← call.plan answering origin
    let more ← planAll answering origin rest
    pure (records ++ more)

theorem planAll_cons_eq_ok {answering : Answering} {origin : Origin} {call : Call} {rest : List Call}
    {records : List Record} :
    planAll answering origin (call :: rest) = .ok records ↔
      ∃ own more, call.plan answering origin = .ok own ∧ planAll answering origin rest = .ok more ∧
        records = own ++ more := by
  rw [planAll, Step.except_bind_eq_ok]
  constructor
  · rintro ⟨own, hown, h⟩
    obtain ⟨more, hmore, h⟩ := Step.except_bind_eq_ok.mp h
    exact ⟨own, more, hown, hmore, (Except.ok.inj h).symm⟩
  · rintro ⟨own, more, hown, hmore, rfl⟩
    exact ⟨own, hown, Step.except_bind_eq_ok.mpr ⟨more, hmore, rfl⟩⟩

theorem planAll_map {ι : Type} {answering : Answering} {origin : Origin} {call : ι → Call} {records : ι → List Record}
    (h : ∀ item, (call item).plan answering origin = .ok (records item)) (items : List ι) :
    planAll answering origin (items.map call) = .ok (items.flatMap records) := by
  induction items with
  | nil => rfl
  | cons item rest ih => exact planAll_cons_eq_ok.mpr ⟨records item, rest.flatMap records, h item, ih, rfl⟩

theorem perform_eq {ζ : Type} [RecordHost ζ] (call : Call) (host : ζ) :
    call.perform host =
      match call.plan (RecordHost.answering host) (RecordHost.origin host) with
      | .ok records => Step.each RecordHost.declare records host
      | .error fault => .error fault host := by
  unfold perform
  rw [Step.bind_of_ok (show (get : Step ζ ζ) host = .ok host host from rfl)]
  cases call.plan (RecordHost.answering host) (RecordHost.origin host) <;> rfl

theorem perform_of_plan_ok {call : Call} {zone : Zone} {records : List Record}
    (h : call.plan zone.backend.answering zone.origin = .ok records) :
    call.perform zone = Step.each Zone.declare records zone := by
  have hplan : call.plan (RecordHost.answering zone) (RecordHost.origin zone) = .ok records := h
  rw [perform_eq, hplan]
  rfl

theorem perform_of_plan_error {call : Call} {zone : Zone} {fault : Fault}
    (h : call.plan zone.backend.answering zone.origin = .error fault) :
    call.perform zone = .error fault zone := by
  have hplan : call.plan (RecordHost.answering zone) (RecordHost.origin zone) = .error fault := h
  rw [perform_eq, hplan]

theorem perform_eq_ok {call : Call} {zone next : Zone} :
    call.perform zone = .ok () next ↔
      ∃ records, call.plan zone.backend.answering zone.origin = .ok records ∧
        Step.each Zone.declare records zone = .ok () next := by
  cases hplan : call.plan zone.backend.answering zone.origin with
  | error fault => simp [perform_of_plan_error hplan]
  | ok records => simp [perform_of_plan_ok hplan]

/-- Calls that succeed declare the records they stand for, one after the other. -/
theorem each_perform_ok {calls : List Call} {zone next : Zone}
    (h : Step.each perform calls zone = .ok () next) :
    ∃ records, planAll zone.backend.answering zone.origin calls = .ok records ∧
      Step.each Zone.declare records zone = .ok () next := by
  induction calls generalizing zone with
  | nil => exact ⟨[], rfl, h⟩
  | cons call rest ih =>
    obtain ⟨⟨⟩, between, hcall, hrest⟩ := Step.bind_eq_ok.mp h
    obtain ⟨own, hplan, hown⟩ := perform_eq_ok.mp hcall
    obtain ⟨-, set, rfl, -⟩ := Zone.each_declare_ok hown
    obtain ⟨more, hmore, hrun⟩ := ih hrest
    refine ⟨own ++ more, planAll_cons_eq_ok.mpr ⟨own, more, hplan, hmore, rfl⟩, ?_⟩
    rw [Step.each_append]
    exact Step.bind_eq_ok.mpr ⟨(), _, hown, hrun⟩

/-- Calls whose records can be told do nothing but declare these, refused or not. -/
theorem each_perform_of_planAll {calls : List Call} {zone : Zone} {records : List Record}
    (h : planAll zone.backend.answering zone.origin calls = .ok records) :
    Step.each perform calls zone = Step.each Zone.declare records zone := by
  induction calls generalizing zone records with
  | nil =>
    cases h
    rfl
  | cons call rest ih =>
    obtain ⟨own, more, hown, hmore, rfl⟩ := planAll_cons_eq_ok.mp h
    have hperform := perform_of_plan_ok hown
    rw [Step.each_append, Step.each_cons]
    cases hrun : Step.each Zone.declare own zone with
    | error fault next => rw [Step.bind_of_error hrun, Step.bind_of_error (hperform.trans hrun)]
    | ok value next =>
      -- The plans of the calls that follow are made for the same name, settings and backend.
      obtain ⟨-, set, rfl, -⟩ := Zone.each_declare_ok hrun
      rw [Step.bind_of_ok hrun, Step.bind_of_ok (hperform.trans hrun)]
      exact ih hmore

end Call

end ZoneGraph
