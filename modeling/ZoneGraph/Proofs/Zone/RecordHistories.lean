import ZoneGraph.Proofs.Zone.Holdings
import ZoneGraph.Proofs.Zone.PublishedRecords

/-! What a zone publishes, told from its history. A record that is declared is published
as its backend has it, with all its parts read back from the resource it became; keys,
users, look-ups and registrations are not published. So the view of a zone has one entry
for each record declared since resources were last taken, in order, and no other. -/
namespace ZoneGraph

/-! ### Records as they are published -/

/-- Whether a published record is what a zone of a backend makes of a record. -/
structure PublishedAs (backend : Backend) (origin : Origin) (record : Record) (published : Published) : Prop where
  zone : published.zone = origin.name
  type : published.type = record.type
  name : published.name = match backend with
    | .livedns => record.name
    | .route53 => if record.name = "@" then origin.name else record.name ++ "." ++ origin.name
  ttl : published.ttl = record.options.ttl.getD origin.defaults.defaultTtl
  values : published.values = match record.values with
    | .list values => if backend = .livedns ∧ record.type = .txt then values.map ("\"" ++ · ++ "\"") else values
    | .expression text => [text]
  setIdentifier : published.setIdentifier = record.options.routing.map RoutingSelector.setIdentifier

namespace Zone

variable {zone next opened : Zone} {resource : Resource} {operation : Operation} {backend : Backend}
  {origin : Origin} {provider : Provider}

theorem publishedAs_ofRecord {record : Record} (h : zone.takesRouting record) :
    PublishedAs zone.backend zone.origin record (Published.ofRecord record zone) := by
  have hlivedns : zone.backend = .livedns → record.options.routing = none := h
  cases hbackend : zone.backend with
  | livedns =>
    constructor <;> simp only [Published.ofRecord, hbackend]
    · rfl
    · rfl
    · rw [livednsValues]
      cases record.values <;> by_cases htype : record.type = .txt <;> simp [htype, Values.toList, inQuotes]
    · rw [hlivedns hbackend, Option.map_none]
  | route53 =>
    constructor <;> simp only [Published.ofRecord, hbackend]
    · rfl
    · rw [qualify, apex, name]
    · rfl
    · cases record.values <;> simp [Values.toList]

theorem ofResource?_of_kind (h : resource.kind.isRecord = false) : Published.ofResource? resource = none := by
  have hkey : Published.valuesKey? resource.kind = none := by
    revert h
    cases resource.kind <;> decide
  rw [Published.ofResource?, hkey]
  rfl

theorem Operation.Adds.ofResource? (h : operation.Adds zone resource) (hcall : ∀ asked, operation ≠ .call asked) :
    Published.ofResource? resource = none := by
  cases h with
  | record => exact absurd rfl (hcall _)
  | livednsKey | hostedZoneKey | hostedZoneSigning | user | userPolicy | lookup | registeredNameservers
    | registeredKey => exact ofResource?_of_kind rfl

/-! ### One operation -/

theorem records_of_toList {added : List Resource} (h : next.resources.toList = zone.resources.toList ++ added) :
    next.records = zone.records ++ added.filterMap Published.ofResource? := by
  rw [records, ResourceSet.records, h, List.filterMap_append]
  rfl

theorem records_take : (Operation.take.next zone).records = [] := rfl

theorem records_call (asked : Call) (zone : Zone) :
    ((Operation.call asked).next zone).records =
      zone.records ++ ((Operation.call asked).declared zone).map (Published.ofRecord · zone) := by
  obtain ⟨set, hafter, hset⟩ := after_perform asked zone
  change (Step.after asked.perform zone).records = _
  rw [hafter, records_of_toList hset, Published.filterMap_recordResource]

/-- An operation other than a call adds no entry, and only taking removes any. -/
theorem records_other (h : zone.Consistent) (htake : operation ≠ .take) (hcall : ∀ asked, operation ≠ .call asked) :
    (operation.next zone).records = zone.records := by
  obtain ⟨added, hnext, hadded⟩ := appends_next h htake
  have hnone : added.filterMap Published.ofResource? = [] :=
    List.filterMap_eq_nil_iff.mpr fun resource hr => (hadded resource hr).ofResource? hcall
  rw [records_of_toList hnext, hnone, List.append_nil]

theorem records_declare {record : Record} (h : declare record zone = .ok () next) :
    zone.takesRouting record ∧ next.records = zone.records ++ [Published.ofRecord record zone] := by
  obtain ⟨htakes, fresh, rfl⟩ := declare_eq_ok.mp h
  refine ⟨htakes, ?_⟩
  rw [records_of_toList (ResourceSet.toList_append zone.resources _ fresh)]
  exact congrArg _ (Published.filterMap_recordResource [record] zone)

/-! ### Histories -/

/-- The records that are kept after an operation, of those kept before it. -/
def Operation.keeps (operation : Operation) (zone : Zone) (kept : List Record) : List Record :=
  match operation with
  | .take => []
  | _ => kept ++ operation.declared zone

/-- The records declared since resources were last taken, in order. -/
def declaredSinceTake (zone : Zone) (operations : List Operation) : List Record :=
  (operations.foldl (fun (state : Zone × List Record) operation =>
    (operation.next state.1, operation.keeps state.1 state.2)) (zone, [])).2

theorem declaredSinceTake_nil (zone : Zone) : zone.declaredSinceTake [] = [] := rfl

theorem declaredSinceTake_concat (zone : Zone) (operations : List Operation) (operation : Operation) :
    zone.declaredSinceTake (operations ++ [operation]) =
      operation.keeps (zone.run operations) (zone.declaredSinceTake operations) := by
  have hfold : ∀ kept, (operations.foldl (fun (state : Zone × List Record) operation =>
      (operation.next state.1, operation.keeps state.1 state.2)) (zone, kept)).1 = zone.run operations := by
    induction operations generalizing zone with
    | nil => exact fun kept => rfl
    | cons first rest ih => exact fun kept => ih (first.next zone) _
  rw [declaredSinceTake, List.foldl_append, List.foldl_cons, List.foldl_nil, hfold]
  rfl

theorem takesRouting_of_mem_accepted {records : List Record} {record : Record} (h : record ∈ accepted records zone) :
    zone.takesRouting record := by
  induction records generalizing zone with
  | nil => cases h
  | cons first rest ih =>
    rw [accepted] at h
    cases hdeclare : declare first zone with
    | error fault next => simp [hdeclare] at h
    | ok value next =>
      obtain ⟨htakes, fresh, rfl⟩ := declare_eq_ok.mp hdeclare
      rw [hdeclare] at h
      rcases List.mem_cons.mp h with rfl | hrest
      · exact htakes
      · have hsame := ih hrest
        exact hsame

theorem takesRouting_of_mem_declared {record : Record} (h : record ∈ operation.declared zone) :
    zone.takesRouting record := by
  unfold Operation.declared at h
  split at h
  · split at h
    · exact takesRouting_of_mem_accepted h
    · cases h
  · cases h

theorem keeps_of_ne_take (htake : operation ≠ .take) (kept : List Record) :
    operation.keeps zone kept = kept ++ operation.declared zone := by
  cases operation <;> first | rfl | exact absurd rfl htake

theorem declared_of_ne_call (hcall : ∀ asked, operation ≠ .call asked) : operation.declared zone = [] := by
  cases operation <;> first | rfl | exact absurd rfl (hcall _)

/-- What is published after an operation, of what was published before it. -/
theorem records_next (h : zone.Consistent) (htake : operation ≠ .take) :
    (operation.next zone).records =
      zone.records ++ (operation.declared zone).map (Published.ofRecord · zone) := by
  by_cases hcall : ∃ asked, operation = .call asked
  · obtain ⟨asked, rfl⟩ := hcall
    exact records_call asked zone
  · have hother : ∀ asked, operation ≠ .call asked := fun asked hsame => hcall ⟨asked, hsame⟩
    rw [records_other h htake hother, declared_of_ne_call hother, List.map_nil, List.append_nil]

section Opened

variable (hopen : Zone.open backend origin provider = .ok opened)

include hopen

theorem publishedAs_run (operations : List Operation) {record : Record}
    (h : (opened.run operations).takesRouting record) :
    PublishedAs backend origin record (Published.ofRecord record (opened.run operations)) := by
  have hpublished := publishedAs_ofRecord h
  rwa [backend_run hopen, origin_run hopen] at hpublished

theorem records_open : opened.records = [] := by
  obtain ⟨-, -, -, -, -, hresources⟩ := open_eq_ok hopen
  rw [records, ResourceSet.records, hresources]
  split <;> rfl

theorem forall₂_publishedAs_run (operations : List Operation) :
    List.Forall₂ (PublishedAs backend origin) (opened.declaredSinceTake operations) (opened.run operations).records := by
  induction operations using List.reverseRecOn with
  | nil =>
    rw [declaredSinceTake_nil, run_nil, records_open hopen]
    exact .nil
  | append_singleton operations operation ih =>
    rw [declaredSinceTake_concat, run_concat]
    by_cases htake : operation = .take
    · subst htake
      exact .nil
    · rw [keeps_of_ne_take htake, records_next (consistent_run (consistent_open hopen) operations) htake]
      refine List.rel_append ih ?_
      rw [List.forall₂_map_right_iff, List.forall₂_same]
      exact fun record hr => publishedAs_run hopen operations (takesRouting_of_mem_declared hr)

end Opened

/-- The view of a zone has one entry for each record declared since resources were last
taken. A record that is declared adds its entry, one that is refused adds none, and no
other operation but the taking changes the view. -/
theorem published_since_take (hopen : Zone.open backend origin provider = .ok opened) (operations : List Operation) :
    let zone := opened.run operations
    List.Forall₂ (PublishedAs backend origin) (opened.declaredSinceTake operations) zone.records ∧
    (∀ record next, declare record zone = .ok () next →
      ∃ published, next.records = zone.records ++ [published] ∧ PublishedAs backend origin record published) ∧
    (∀ record fault next, declare record zone = .error fault next → next.records = zone.records) ∧
    (Operation.take.next zone).records = [] ∧
    (∀ operation : Operation, operation ≠ .take → (∀ asked, operation ≠ .call asked) →
      (operation.next zone).records = zone.records) := by
  intro zone
  refine ⟨forall₂_publishedAs_run hopen operations, ?_, ?_, records_take, ?_⟩
  · intro record next hdeclare
    obtain ⟨htakes, hrecords⟩ := records_declare hdeclare
    exact ⟨_, hrecords, publishedAs_run hopen operations htakes⟩
  · intro record fault next hrefused
    rw [(declare_eq_error.mp hrefused).1]
  · intro operation htake hcall
    exact records_other (consistent_run (consistent_open hopen) operations) htake hcall

/-- Mail services that are taken, a text after signing, and the same text once more. -/
def noteHistory : List Operation :=
  [.call .mailServices, .take, .sign none, .call (.record ⟨"note", .txt, .single "hello", {}⟩), .nameservers,
    .call (.record ⟨"note", .txt, .single "hello", {}⟩)]

/-- The text is published once, in quotes. -/
theorem published_since_take_note :
    ∃ opened, Zone.open .livedns ⟨"luffy.cx", { acmeRoot := "luffy.cx" }⟩ ⟨.gandi, "vb", []⟩ = .ok opened ∧
      opened.declaredSinceTake noteHistory = [⟨"note", .txt, .single "hello", {}⟩] ∧
      ∃ published, (opened.run noteHistory).records = [published] ∧ published.values = ["\"hello\""] := by
  have heval : (Zone.open .livedns ⟨"luffy.cx", { acmeRoot := "luffy.cx" }⟩ ⟨.gandi, "vb", []⟩).toOption.map
      (·.declaredSinceTake noteHistory) = some [⟨"note", .txt, .single "hello", {}⟩] := by
    decide +kernel
  obtain ⟨opened, hopen, hdeclared⟩ := Step.exists_ok_of_toOption heval
  obtain ⟨hpublished, -⟩ := published_since_take hopen noteHistory
  rw [hdeclared, List.forall₂_cons_left_iff] at hpublished
  obtain ⟨published, rest, has, hrest, hrecords⟩ := hpublished
  rw [List.forall₂_nil_left_iff.mp hrest] at hrecords
  exact ⟨opened, hopen, hdeclared, published, hrecords, has.values⟩

end Zone

end ZoneGraph
