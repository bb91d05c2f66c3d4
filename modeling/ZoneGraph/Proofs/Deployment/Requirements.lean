import ZoneGraph.Proofs.Deployment.Delegations

/-! What a build needs. The zones of a file must be built by themselves, and a group must
have one. Beyond that a build is refused only where a name is taken: two providers or two
outputs of one name, or two resources of one path. None of this depends on the order in
which the groups stand, except for what a zone sees of the groups before. -/
namespace ZoneGraph

/-! ### Groups -/

namespace Building

variable {file : DeploymentFile} {calls : List (Except Fault Call)} {before : List ZoneSpec} {zones built : List Zone}
  {building : Building}

theorem exists_close {spec : ZoneSpec} {prepared called zone : Zone} (hprepared : spec.prepared file = .ok prepared)
    (hcalled : Step.each Zone.ask calls prepared = .ok () called)
    (hknown : Known file before zones building.summaries)
    (halone : spec.alone file calls (spec.isFirstDelegated file before) = .ok zone)
    (hpaths : ((building.stack.resources.toList ++ zone.resources.toList).map Resource.path).Nodup) :
    ∃ next, close file.delegated called building = .ok () next := by
  have hname := ZoneSpec.name_of_called hprepared hcalled
  obtain ⟨made, hmade, hlast⟩ := (ZoneSpec.alone_of_prepared hprepared).mp halone
  obtain rfl : called = made := (EStateM.Result.ok.inj (hcalled.symm.trans hmade)).2
  rcases hlast with ⟨hfirst, servers, hservers⟩ | ⟨hnot, rfl⟩
  · obtain ⟨hd, hfree⟩ := (hknown.isFirstDelegated_iff hname).mp hfirst
    have hsummary := Zone.summary_eq_ok.mpr ⟨servers, hservers, rfl⟩
    exact ⟨_, close_eq_ok.mpr ⟨zone, ⟨_, hpaths⟩, rfl, Or.inl ⟨hd, hfree, _, hsummary, rfl⟩⟩⟩
  · have hskip := mt (hknown.isFirstDelegated_iff hname).mpr (Bool.eq_false_iff.mp hnot)
    exact ⟨_, close_eq_ok.mpr ⟨called, ⟨_, hpaths⟩, rfl, Or.inr ⟨hskip, rfl, rfl⟩⟩⟩

theorem exists_each_close {specs : List ZoneSpec} {prepared called : List Zone}
    (hprepared : List.Forall₂ (fun spec zone => spec.prepared file = .ok zone) specs prepared)
    (hcalled : List.Forall₂ (fun zone zone' => Step.each Zone.ask calls zone = .ok () zone') prepared called)
    (hknown : Known file before zones building.summaries) (hruns : file.groupRuns calls before specs = built.map .ok)
    (hpaths : ((building.stack.resources.toList ++ built.flatMap (·.resources.toList)).map Resource.path).Nodup) :
    ∃ next, Step.each (close file.delegated) called building = .ok () next := by
  induction hprepared generalizing called before zones built building with
  | nil =>
    cases hcalled
    exact ⟨building, rfl⟩
  | @cons spec first specs others hfirst hothers ih =>
    obtain _ | @⟨_, made, _, rest, hmade, hrest⟩ := hcalled
    rw [DeploymentFile.groupRuns] at hruns
    obtain ⟨zone, more, rfl, halone, hmore⟩ := List.map_eq_cons_iff.mp hruns.symm
    rw [List.flatMap_cons, ← List.append_assoc] at hpaths
    have hown := hpaths.sublist ((List.sublist_append_left _ _).map _)
    obtain ⟨between, hclose⟩ := exists_close hfirst hmade hknown halone.symm hown
    obtain ⟨same, set, hsame, hafter, hstack, hset⟩ := close_called hfirst hmade hknown hclose
    obtain rfl : zone = same := Except.ok.inj (halone.trans hsame)
    obtain ⟨next, hnext⟩ := ih hrest hafter hmore.symm (by rw [hstack, hset]; exact hpaths)
    exact ⟨next, Step.bind_eq_ok.mpr ⟨(), between, hclose, hnext⟩⟩

theorem exists_called {specs : List ZoneSpec} (hruns : file.groupRuns calls before specs = built.map .ok) :
    ∃ prepared called, List.Forall₂ (fun spec zone => spec.prepared file = .ok zone) specs prepared ∧
      List.Forall₂ (fun zone zone' => Step.each Zone.ask calls zone = .ok () zone') prepared called := by
  induction specs generalizing before built with
  | nil => exact ⟨[], [], .nil, .nil⟩
  | cons spec rest ih =>
    rw [DeploymentFile.groupRuns] at hruns
    obtain ⟨zone, more, rfl, halone, hmore⟩ := List.map_eq_cons_iff.mp hruns.symm
    obtain ⟨first, made, hfirst, hmade, -⟩ := ZoneSpec.alone_eq_ok.mp halone.symm
    obtain ⟨prepared, called, hprepared, hcalled⟩ := ih hmore.symm
    exact ⟨first :: prepared, made :: called, .cons hfirst hprepared, .cons hmade hcalled⟩

/-- A group of zones is built if no name is taken. -/
theorem exists_group {servers : List Server} {aliases : List Resource} {spec : GroupSpec} (hspec : spec ∈ file.groups)
    (hreached : Reached file aliases before zones building) (hne : spec.zones ≠ [])
    (hruns : file.groupRuns (spec.calls servers (summariesOf (zones.map .ok))) before spec.zones = built.map .ok)
    (hpaths : ((building.stack.resources.toList ++ built.flatMap (·.resources.toList)).map Resource.path).Nodup)
    (hnames : ((ZoneSpec.outputs (before ++ spec.zones) (zones ++ built)).map Prod.fst).Nodup) :
    ∃ next, group file servers file.keyHandles file.delegated spec building = .ok () next := by
  obtain ⟨prepared, called, hprepared, hcalled⟩ := exists_called hruns
  rw [ZoneSpec.outputs_append hreached.length, ZoneSpec.outputs_of_prepared hprepared hruns] at hnames
  have hput := (Stack.putOut_eq_ok hreached.distinct hreached.outputs).mpr ⟨hnames, rfl⟩
  have hcollect := (ZoneSpec.collect_build_eq_ok hreached.providers).mpr ⟨hprepared, hput⟩
  have hsome : prepared ≠ [] := by
    rintro rfl
    exact hne (List.forall₂_nil_right_iff.mp hprepared)
  rw [← hreached.calls_eq hspec] at hcalled hruns
  let opened : Building := { building with stack := { building.stack with
    outputs := Keyed.ofList (ZoneSpec.outputs before zones ++ ZoneSpec.outputs spec.zones prepared) } }
  have hopen : onStack (Step.collect (ZoneSpec.build file.defaults file.keyHandles) spec.zones) building =
      .ok prepared opened := Step.within_eq_ok.mpr ⟨_, hcollect, rfl⟩
  have hknown : Known file before zones opened.summaries := hreached.known
  obtain ⟨next, hnext⟩ := exists_each_close hprepared hcalled hknown hruns hpaths
  refine ⟨next, Step.bind_eq_ok.mpr ⟨prepared, opened, hopen, ?_⟩⟩
  rw [Step.get_bind]
  exact Step.bind_eq_ok.mpr ⟨called, opened, callZones_eq_ok.mpr ⟨hsome, rfl, hcalled⟩, hnext⟩

/-- A run over groups of zones goes through if no name is taken. -/
theorem exists_each_group {servers : List Server} {aliases : List Resource} {groups : List GroupSpec}
    (hgroups : ∀ spec ∈ groups, spec ∈ file.groups) (hreached : Reached file aliases before zones building)
    (hne : ∀ spec ∈ groups, spec.zones ≠ [])
    (hruns : file.runsAfter servers before (zones.map .ok) groups = built.map .ok)
    (hpaths : ((aliases ++ (zones ++ built).flatMap (·.resources.toList)).map Resource.path).Nodup)
    (hnames : ((ZoneSpec.outputs (before ++ groups.flatMap GroupSpec.zones) (zones ++ built)).map Prod.fst).Nodup) :
    ∃ next, Step.each (group file servers file.keyHandles file.delegated) groups building = .ok () next := by
  induction groups generalizing before zones built building with
  | nil => exact ⟨building, rfl⟩
  | cons spec rest ih =>
    obtain ⟨hspec, hgroups⟩ := List.forall_mem_cons.mp hgroups
    obtain ⟨hfirst, hne⟩ := List.forall_mem_cons.mp hne
    rw [DeploymentFile.runsAfter] at hruns
    obtain ⟨own, more, rfl, hown, hmore⟩ := List.map_eq_append_iff.mp hruns.symm
    rw [← hown, ← List.map_append] at hmore
    have hlength : (before ++ spec.zones).length = (zones ++ own).length := by
      rw [List.length_append, List.length_append, hreached.length, DeploymentFile.length_of_groupRuns hown.symm]
    rw [List.flatMap_cons, ← List.append_assoc, ← List.append_assoc] at hnames
    rw [← List.append_assoc] at hpaths
    have hownNames : ((ZoneSpec.outputs (before ++ spec.zones) (zones ++ own)).map Prod.fst).Nodup := by
      rw [ZoneSpec.outputs_append hlength] at hnames
      exact hnames.sublist ((List.sublist_append_left _ _).map _)
    have hownPaths : ((building.stack.resources.toList ++ own.flatMap (·.resources.toList)).map Resource.path).Nodup := by
      rw [hreached.resources, List.append_assoc, ← List.flatMap_append]
      rw [List.flatMap_append, ← List.append_assoc] at hpaths
      exact hpaths.sublist ((List.sublist_append_left _ _).map _)
    obtain ⟨between, hgroup⟩ := exists_group hspec hreached hfirst hown.symm hownPaths hownNames
    obtain ⟨same, hsame, hbetween⟩ := group_ok hspec hreached hgroup
    obtain rfl : own = same := List.map_injective_iff.mpr (fun _ _ => Except.ok.inj) (hown.trans hsame)
    obtain ⟨next, hnext⟩ := ih hgroups hbetween hne hmore.symm hpaths hnames
    exact ⟨next, Step.bind_eq_ok.mpr ⟨(), between, hgroup, hnext⟩⟩

end Building

/-! ### Whole builds -/

namespace DeploymentFile

variable {file : DeploymentFile} {servers : List Server}

/-- A file builds just if each zone can be built by itself, no group is without zones, and no
two providers, resources or outputs are of one name. -/
theorem exists_build_iff :
    (∃ stack, file.build servers = .ok stack) ↔
      ∃ aliases zones, file.keyAliases = .ok aliases ∧ file.runs servers = zones.map .ok ∧
        (∀ group ∈ file.groups, group.zones ≠ []) ∧ file.providers.keys.Nodup ∧
        ((aliases ++ zones.flatMap (·.resources.toList)).map Resource.path).Nodup ∧
        ((ZoneSpec.outputs file.zoneSpecs zones).map Prod.fst).Nodup := by
  constructor
  · rintro ⟨stack, h⟩
    have hne : ∀ group ∈ file.groups, group.zones ≠ [] := fun group => zones_ne_nil_of_build h
    obtain ⟨aliases, zones, building, haliases, hruns, rfl, hreached⟩ := reached_of_build h
    refine ⟨aliases, zones, haliases, hruns, hne, hreached.named, ?_, hreached.distinct⟩
    rw [← hreached.resources]
    exact building.stack.resources.nodup
  · rintro ⟨aliases, zones, haliases, hruns, hne, hproviders, hpaths, hnames⟩
    have hownPaths : (aliases.map Resource.path).Nodup := hpaths.sublist ((List.sublist_append_left _ _).map _)
    obtain ⟨building, hgroups⟩ := Building.exists_each_group (fun _ hspec => hspec)
      (reached_started hproviders ⟨aliases, hownPaths⟩) hne hruns hpaths hnames
    have hall := buildAll_eq_ok.mpr ⟨hproviders, ⟨aliases, hownPaths⟩, haliases, hgroups⟩
    exact ⟨building.stack, by rw [build, hall]⟩

end DeploymentFile

end ZoneGraph
