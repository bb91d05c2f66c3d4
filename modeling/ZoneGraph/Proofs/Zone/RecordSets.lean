import ZoneGraph.Proofs.Zone.Changes

/-! Which records exclude each other on Route53. A record is refused when another one was
declared at its path since resources were last taken, and for no other reason. One of the
same record set lies at its path. So does one of another set whose name takes in a part of
the set identifier, since a path joins the two by a hyphen and either may have hyphens of
its own. Between names without a hyphen this does not happen. -/
namespace ZoneGraph.Zone

variable {zone next opened : Zone} {origin : Origin} {provider : Provider} {record other : Record}

/-- On Route53 a record is refused only because its path is taken. -/
theorem declare_error_iff_of_route53 (hbackend : zone.backend = .route53) {fault : Fault} :
    declare record zone = .error fault next ↔ next = zone ∧ zone.pathOf record.path ∈ zone.resources.paths ∧
      fault = .duplicateResource (zone.pathOf record.path) := by
  have htakes : zone.takesRouting record := by
    intro hlivedns
    rw [hbackend] at hlivedns
    cases hlivedns
  rw [declare_eq_error, path_recordResource]
  simp [htakes]

/-- A record declared since resources were last taken excludes one that is of its set or
confused with it, and no other. -/
theorem declare_refused_iff (hopen : Zone.open .route53 origin provider = .ok opened)
    (operations : List Operation) (record : Record) :
    let zone := opened.run operations
    (∀ fault next, declare record zone = .error fault next →
      fault = .duplicateResource (zone.pathOf record.path) ∧ next = zone) ∧
    ((∃ fault next, declare record zone = .error fault next) ↔
      SinceTake (fun operation zone => ∃ other ∈ operation.declared zone,
        other.SameSet record ∨ other.Confused record) opened operations) ∧
    (∀ other : Record, other.Confused record → '-' ∈ other.name.toList ∨ '-' ∈ record.name.toList) := by
  intro zone
  have hbackend : zone.backend = .route53 := by
    rw [(same_run (consistent_open hopen) operations).1]
    exact (open_eq_ok hopen).1
  have hdeclares : (fun operation zone => ∃ other ∈ Operation.declared operation zone,
      other.SameSet record ∨ other.Confused record) = Operation.Declares record := by
    funext operation zone
    simp only [Operation.Declares, Record.path_eq_iff_sameSet_or_confused]
  rw [hdeclares, ← declared_run hopen record operations]
  refine ⟨?_, ?_, ?_⟩
  · intro fault next hrefused
    obtain ⟨hnext, -, hfault⟩ := (declare_error_iff_of_route53 hbackend).mp hrefused
    exact ⟨hfault, hnext⟩
  · constructor
    · rintro ⟨fault, next, hrefused⟩
      exact ((declare_error_iff_of_route53 hbackend).mp hrefused).2.1
    · intro taken
      exact ⟨_, _, (declare_error_iff_of_route53 hbackend).mpr ⟨rfl, taken, rfl⟩⟩
  · intro other hconfused
    by_contra hnone
    obtain ⟨hother, hrecord⟩ := not_or.mp hnone
    exact Record.not_confused hother hrecord hconfused

/-- What a single record excludes is excluded by that record itself. -/
theorem sinceTake_record {P : Record → Prop}
    (h : SinceTake (fun operation zone => ∃ other ∈ operation.declared zone, P other) opened
      [.call (.record record)]) : P record := by
  obtain ⟨other, hother, hP⟩ := sinceTake_singleton.mp h
  obtain rfl : other = record := List.mem_singleton.mp ((accepted_prefix_records [record] _).subset hother)
  exact hP

/-- The answer of a web name for clients in one country. -/
def placedRecord : Record :=
  ⟨"www", .a, .single "192.0.2.3", { routing := some (.ofLocation ⟨.country, "US"⟩) }⟩

/-- The answer for everybody else is of another set, and it is not refused. -/
theorem declare_refused_iff_www :
    ∃ opened, Zone.open .route53 ⟨"luffy.cx", { acmeRoot := "luffy.cx" }⟩ ⟨.aws, "main", []⟩ = .ok opened ∧
      Step.Accepts (declare ⟨"www", .a, .single "192.0.2.4", {}⟩) (opened.run [.call (.record placedRecord)]) := by
  obtain ⟨opened, hopen⟩ : ∃ opened,
      Zone.open .route53 ⟨"luffy.cx", { acmeRoot := "luffy.cx" }⟩ ⟨.aws, "main", []⟩ = .ok opened :=
    exists_open (by decide +kernel) rfl
  obtain ⟨-, hrefused, hconfused⟩ :=
    declare_refused_iff hopen [.call (.record placedRecord)] ⟨"www", .a, .single "192.0.2.4", {}⟩
  refine ⟨opened, hopen, ?_⟩
  cases hdeclare : declare ⟨"www", .a, .single "192.0.2.4", {}⟩ (opened.run [.call (.record placedRecord)]) with
  | ok value next => exact ⟨value, next, hdeclare⟩
  | error fault next =>
    rcases sinceTake_record (hrefused.mp ⟨fault, next, hdeclare⟩) with hsame | hother
    · exact absurd hsame.setIdentifier (by decide)
    · exact absurd (hconfused _ hother) (by decide)

/-- An answer for everybody, under a name that reads like a set identifier. -/
def hyphenRecord : Record := ⟨"geo-country-US-www", .a, .single "192.0.2.4", {}⟩

/-- A record is refused although none of its set was declared. -/
theorem declare_hyphen_refused :
    ∃ opened, Zone.open .route53 ⟨"luffy.cx", { acmeRoot := "luffy.cx" }⟩ ⟨.aws, "main", []⟩ = .ok opened ∧
      (∃ next, declare hyphenRecord (opened.run [.call (.record placedRecord)]) =
        .error (.duplicateResource "R53-luffy.cx/A-geo-country-US-www") next) ∧
      ¬ SinceTake (fun operation zone => ∃ other ∈ operation.declared zone, other.SameSet hyphenRecord)
        opened [.call (.record placedRecord)] := by
  obtain ⟨opened, hopen⟩ : ∃ opened,
      Zone.open .route53 ⟨"luffy.cx", { acmeRoot := "luffy.cx" }⟩ ⟨.aws, "main", []⟩ = .ok opened :=
    exists_open (by decide +kernel) rfl
  obtain ⟨hbackend, horigin, -⟩ := open_eq_ok hopen
  obtain ⟨hbackend', horigin'⟩ := same_run (consistent_open hopen) [.call (.record placedRecord)]
  have hfresh : Step.Accepts (declare placedRecord) opened := by
    refine ⟨(), _, declare_eq_ok.mpr ⟨fun hlivedns => ?_, ?_, rfl⟩⟩
    · rw [hbackend] at hlivedns
      cases hlivedns
    · rw [path_recordResource]
      exact notMem_paths_open hopen (by decide)
  have taken := (declared_run hopen hyphenRecord [.call (.record placedRecord)]).mpr
    ⟨[], _, [], rfl, List.not_mem_nil, placedRecord, by rw [run_nil, declared_record hfresh]; simp, by decide⟩
  have hpath : (opened.run [.call (.record placedRecord)]).pathOf hyphenRecord.path =
      "R53-luffy.cx/A-geo-country-US-www" := by
    rw [pathOf, path, name, hbackend', horigin', hbackend, horigin]
    decide
  have hroute53 := hbackend'.trans hbackend
  refine ⟨opened, hopen, ⟨_, (declare_error_iff_of_route53 hroute53).mpr ⟨rfl, taken, by rw [hpath]⟩⟩, ?_⟩
  intro hsince
  exact absurd (sinceTake_record hsince).name (by decide)

end ZoneGraph.Zone
