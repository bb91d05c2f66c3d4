import ZoneGraph.Proofs.Zone.RecordHistories
import Mathlib.Data.List.Nodup

/-! Free paths. The path of a record is taken in a zone when a record of that path was
declared since resources were last taken, so in a zone without records every such path is
free, whatever else the zone holds. Records whose paths are free and pairwise distinct are
all declared, one after the other, and no others are: the first one at a path of an earlier
one is refused, and those before it stay. -/
namespace ZoneGraph.Zone

variable {zone opened : Zone} {backend : Backend} {origin : Origin} {provider : Provider}

/-! ### Histories -/

theorem mem_declaredSinceTake {record : Record} {operations : List Operation} :
    record ∈ zone.declaredSinceTake operations ↔
      SinceTake (fun operation zone => record ∈ operation.declared zone) zone operations := by
  induction operations using List.reverseRecOn with
  | nil => exact iff_of_false List.not_mem_nil not_sinceTake_nil
  | append_singleton operations operation ih =>
    rw [declaredSinceTake_concat, sinceTake_concat, ← ih]
    by_cases htake : operation = .take
    · subst htake
      simp [Operation.keeps, Operation.declared]
    · rw [keeps_of_ne_take htake, List.mem_append, and_iff_right htake]

/-- The path of a record is taken by the records declared since resources were last taken. -/
theorem path_mem_run_iff (hopen : Zone.open backend origin provider = .ok opened) (record : Record)
    (operations : List Operation) :
    (opened.run operations).pathOf record.path ∈ (opened.run operations).resources.paths ↔
      ∃ other ∈ opened.declaredSinceTake operations, other.path = record.path := by
  rw [declared_run hopen]
  constructor
  · rintro ⟨before, operation, later, hsplit, htake, other, hother, hpath⟩
    exact ⟨other, mem_declaredSinceTake.mpr ⟨before, operation, later, hsplit, htake, hother⟩, hpath⟩
  · rintro ⟨other, hother, hpath⟩
    exact (mem_declaredSinceTake.mp hother).imp fun _ _ hmem => ⟨other, hmem, hpath⟩

theorem path_notMem_of_records_nil (hopen : Zone.open backend origin provider = .ok opened)
    {operations : List Operation} (hnone : (opened.run operations).records = []) (record : Record) :
    (opened.run operations).pathOf record.path ∉ (opened.run operations).resources.paths := by
  have hpublished := forall₂_publishedAs_run hopen operations
  rw [hnone, List.forall₂_nil_right_iff] at hpublished
  rw [path_mem_run_iff hopen, hpublished]
  simp

/-! ### Declarations -/

theorem each_declare_of_free {records : List Record} (htakes : ∀ record ∈ records, zone.takesRouting record)
    (hdistinct : (records.map Record.path).Nodup)
    (hfree : ∀ record ∈ records, zone.pathOf record.path ∉ zone.resources.paths) :
    ∃ set, Step.each declare records zone = .ok () { zone with resources := set } ∧
      set.toList = zone.resources.toList ++ records.map zone.recordResource := by
  induction records generalizing zone with
  | nil => exact ⟨zone.resources, rfl, (List.append_nil _).symm⟩
  | cons record rest ih =>
    obtain ⟨htake, htakes⟩ := List.forall_mem_cons.mp htakes
    obtain ⟨hfresh, hfree⟩ := List.forall_mem_cons.mp hfree
    obtain ⟨hother, hdistinct⟩ := List.nodup_cons.mp hdistinct
    rw [← path_recordResource] at hfresh
    -- What is declared first takes none of the other paths.
    have hrest : ∀ other ∈ rest, zone.pathOf other.path ∉
        (zone.resources.append (zone.recordResource record) hfresh).paths := by
      intro other hmem
      rw [ResourceSet.paths_append, List.mem_append, List.mem_singleton, path_recordResource, pathOf_inj, not_or]
      exact ⟨hfree other hmem, fun hpath => hother (hpath ▸ List.mem_map_of_mem hmem)⟩
    obtain ⟨set, heach, hset⟩ :=
      @ih { zone with resources := zone.resources.append (zone.recordResource record) hfresh } htakes hdistinct hrest
    refine ⟨set, ?_, ?_⟩
    · rw [Step.each_cons, Step.bind_of_ok (declare_eq_ok.mpr ⟨htake, hfresh, rfl⟩), heach]
    · rw [hset, ResourceSet.toList_append, List.append_assoc]
      rfl

theorem records_of_each_declare {next : Zone} {records : List Record}
    (h : Step.each declare records zone = .ok () next) :
    next.records = zone.records ++ records.map (Published.ofRecord · zone) := by
  obtain ⟨-, set, rfl, hset⟩ := each_declare_ok h
  rw [records_of_toList hset, Published.filterMap_recordResource]

theorem paths_of_each_declare {next : Zone} {records : List Record}
    (h : Step.each declare records zone = .ok () next) :
    next.resources.paths = zone.resources.paths ++ (records.map Record.path).map zone.pathOf := by
  obtain ⟨-, set, rfl, hset⟩ := each_declare_ok h
  rw [ResourceSet.paths_of_toList hset, List.map_map, List.map_map]
  congr 1
  exact List.map_congr_left fun record _ => path_recordResource record zone

/-- Records are all declared exactly when the backend takes each of them and their paths are
distinct and free. -/
theorem accepts_each_declare_iff {records : List Record} :
    Step.Accepts (Step.each declare records) zone ↔
      (∀ record ∈ records, zone.takesRouting record) ∧ (records.map Record.path).Nodup ∧
        ∀ record ∈ records, zone.pathOf record.path ∉ zone.resources.paths := by
  constructor
  · rintro ⟨⟨⟩, next, h⟩
    have hnodup := next.resources.nodup
    rw [← ResourceSet.paths, paths_of_each_declare h, List.nodup_append] at hnodup
    obtain ⟨-, hdistinct, hfree⟩ := hnodup
    refine ⟨(each_declare_ok h).1, List.Nodup.of_map _ hdistinct, fun record hrecord htaken => ?_⟩
    exact hfree _ htaken _ (List.mem_map_of_mem (List.mem_map_of_mem hrecord)) rfl
  · rintro ⟨htakes, hdistinct, hfree⟩
    obtain ⟨set, heach, -⟩ := each_declare_of_free htakes hdistinct hfree
    exact ⟨(), _, heach⟩

/-- Where every record has a free path, only distinctness is left to ask for. -/
theorem accepts_each_declare_of_free {records : List Record} (htakes : ∀ record ∈ records, zone.takesRouting record)
    (hfree : ∀ record : Record, zone.pathOf record.path ∉ zone.resources.paths) :
    Step.Accepts (Step.each declare records) zone ↔ (records.map Record.path).Nodup := by
  rw [accepts_each_declare_iff, and_iff_right htakes, and_iff_left fun record _ => hfree record]

/-- The first record at a path of an earlier one is refused, and what came before it stays. -/
theorem each_declare_of_repeated {before after : List Record} {record : Record}
    (htakes : ∀ other ∈ before ++ record :: after, zone.takesRouting other)
    (hdistinct : (before.map Record.path).Nodup) (hrepeated : record.path ∈ before.map Record.path)
    (hfree : ∀ other ∈ before, zone.pathOf other.path ∉ zone.resources.paths) :
    ∃ next, Step.each declare (before ++ record :: after) zone =
        .error (.duplicateResource (zone.pathOf record.path)) next ∧
      Step.each declare before zone = .ok () next := by
  obtain ⟨hbefore, hrest⟩ := List.forall_mem_append.mp htakes
  obtain ⟨set, heach, -⟩ := each_declare_of_free hbefore hdistinct hfree
  have htaken : zone.pathOf record.path ∈ set.paths := by
    rw [paths_of_each_declare heach]
    exact List.mem_append_right _ (List.mem_map_of_mem hrepeated)
  rw [← path_recordResource] at htaken ⊢
  have hrefused : declare record { zone with resources := set } =
      .error (.duplicateResource (zone.recordResource record).path) { zone with resources := set } :=
    declare_eq_error.mpr ⟨rfl, Or.inr ⟨(List.forall_mem_cons.mp hrest).1, htaken, rfl⟩⟩
  refine ⟨_, ?_, heach⟩
  rw [Step.each_append, Step.bind_of_ok heach, Step.each_cons, Step.bind_of_error hrefused]

end ZoneGraph.Zone
