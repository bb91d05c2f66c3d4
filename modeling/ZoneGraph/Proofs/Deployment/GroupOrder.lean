import ZoneGraph.Proofs.Deployment.Requirements
import ZoneGraph.Proofs.Stack.Document
import Mathlib.Data.List.Pairwise

/-! The order of groups does not matter where each delegation is to an earlier group and no
two groups have a zone name in common. A zone then sees the same of the zones that it
delegates to wherever its group stands, and it is the first of its name in any order just if
it is so in its group. So every group is built to the same zones, and what a build needs
beside does not depend on their order. -/
namespace ZoneGraph

/-! ### Groups apart -/

namespace GroupSpec

def names (group : GroupSpec) : List String := group.zones.map ZoneSpec.name

/-- Whether two groups have no zone name in common. -/
def Apart (group other : GroupSpec) : Prop := ∀ name ∈ group.names, name ∉ other.names

theorem Apart.symm {group other : GroupSpec} (h : group.Apart other) : other.Apart group :=
  fun name hother hgroup => h name hgroup hother

instance : Std.Symm Apart := ⟨fun _ _ => Apart.symm⟩

end GroupSpec

/-- Whether each delegation of some groups is to a zone of an earlier one. -/
def DelegatesBack (groups : List GroupSpec) : Prop :=
  ∀ before group after, groups = before ++ group :: after →
    ∀ delegation ∈ group.delegations, ∃ earlier ∈ before, delegation.zone ∈ earlier.names

namespace DelegatesBack

theorem nil : DelegatesBack [] := fun _ _ _ hgroups => by simp at hgroups

theorem concat {groups : List GroupSpec} {group : GroupSpec} (h : DelegatesBack groups)
    (hgroup : ∀ delegation ∈ group.delegations, ∃ earlier ∈ groups, delegation.zone ∈ earlier.names) :
    DelegatesBack (groups ++ [group]) := by
  intro before found after hgroups delegation hdelegation
  rcases List.eq_nil_or_concat' after with rfl | ⟨rest, last, rfl⟩
  · obtain ⟨rfl, hsame⟩ := List.append_inj' hgroups rfl
    obtain rfl := List.singleton_injective hsame
    exact hgroup delegation hdelegation
  · rw [← List.cons_append, ← List.append_assoc] at hgroups
    obtain ⟨rfl, -⟩ := List.append_inj' hgroups rfl
    exact h before found rest rfl delegation hdelegation

end DelegatesBack

/-! ### Summaries of groups -/

theorem find?_summariesOf_eq_none {file : DeploymentFile} {specs : List ZoneSpec} {runs : List (Except Fault Zone)}
    {name : String} (h : List.Forall₂ (fun spec run => ∃ calls lookUp, run = spec.alone file calls lookUp) specs runs)
    (hname : name ∉ specs.map ZoneSpec.name) : Keyed.find? name (summariesOf runs) = none := by
  induction h with
  | nil => rfl
  | @cons spec run specs runs hrun _ ih =>
    rw [List.map_cons, List.mem_cons, not_or] at hname
    obtain ⟨hne, hrest⟩ := hname
    have hfirst : Keyed.find? name (summaryOf? run).toList = none := by
      obtain ⟨calls, lookUp, rfl⟩ := hrun
      cases hzone : spec.alone file calls lookUp with
      | error fault => rfl
      | ok zone =>
        obtain ⟨-, hown⟩ := ZoneSpec.named_of_alone hzone
        exact find?_summaryOf?_of_ne (hown ▸ Ne.symm hne)
    have hcons : summariesOf (run :: runs) = (summaryOf? run).toList ++ summariesOf runs := by
      rw [summariesOf, List.filterMap_cons]
      cases summaryOf? run <;> rfl
    rw [hcons, Keyed.find?_append, hfirst, ih hrest]
    rfl

namespace DeploymentFile

variable {file : DeploymentFile} {servers : List Server} {groups : List GroupSpec} {group : GroupSpec} {name : String}

/-- The zones of a group built by themselves, given what all zones of the file leave. -/
def ran (file : DeploymentFile) (servers : List Server) (group : GroupSpec) : List (Except Fault Zone) :=
  file.groupRuns (group.calls servers (summariesOf (file.runs servers))) [] group.zones

theorem find?_summariesOf_ran_eq_none (h : name ∉ group.names) :
    Keyed.find? name (summariesOf (file.ran servers group)) = none :=
  find?_summariesOf_eq_none (groupRuns_forall₂ file _ group.zones []) h

/-- What groups leave under a name is what the one group leaves that has the name. -/
theorem find?_summariesOf_flatMap_ran (hapart : groups.Pairwise GroupSpec.Apart) (hgroup : group ∈ groups)
    (hname : name ∈ group.names) :
    Keyed.find? name (summariesOf (groups.flatMap (file.ran servers))) =
      Keyed.find? name (summariesOf (file.ran servers group)) := by
  rw [summariesOf, List.filterMap_flatMap]
  refine Keyed.find?_flatMap hgroup fun other hother hne => ?_
  exact find?_summariesOf_ran_eq_none fun hown => hapart.forall hother hgroup hne name hown hname

/-! ### Runs in another order -/

/-- Whether a zone is the first of its name does not depend on groups with other names. -/
theorem groupRuns_append_before {calls : List (Except Fault Call)} {specs before : List ZoneSpec}
    (h : ∀ spec ∈ specs, spec.name ∉ before.map ZoneSpec.name) (own : List ZoneSpec) :
    file.groupRuns calls (before ++ own) specs = file.groupRuns calls own specs := by
  induction specs generalizing own with
  | nil => rfl
  | cons spec rest ih =>
    obtain ⟨hspec, hrest⟩ := List.forall_mem_cons.mp h
    have hfirst : spec.isFirstDelegated file (before ++ own) = spec.isFirstDelegated file own := by
      simp [ZoneSpec.isFirstDelegated, List.map_append, hspec]
    rw [groupRuns, groupRuns, hfirst, List.append_assoc, ih hrest]

/-- A zone built by itself sees nothing of the order of the groups. -/
theorem groupRuns_reordered (hperm : groups.Perm file.groups) (calls : List (Except Fault Call))
    (specs before : List ZoneSpec) :
    groupRuns { file with groups } calls before specs = file.groupRuns calls before specs := by
  have hdelegated (name : String) : name ∈ delegated { file with groups } ↔ name ∈ file.delegated :=
    (hperm.flatMap_right _).mem_iff
  induction specs generalizing before with
  | nil => rfl
  | cons spec rest ih =>
    have hfirst : spec.isFirstDelegated { file with groups } before = spec.isFirstDelegated file before := by
      rw [ZoneSpec.isFirstDelegated, ZoneSpec.isFirstDelegated, decide_eq_decide, hdelegated]
    rw [groupRuns, groupRuns, hfirst, ih]
    rfl

/-- The runs in another order are those of each group, where delegations find what they find
among all zones of the file. -/
theorem runs_reordered (hperm : groups.Perm file.groups) (hapart : groups.Pairwise GroupSpec.Apart)
    (hfound : ∀ before group after, groups = before ++ group :: after →
      runsAfter { file with groups } servers [] [] before = before.flatMap (file.ran servers) →
        ∀ delegation ∈ group.delegations,
          Keyed.find? delegation.zone (summariesOf (before.flatMap (file.ran servers))) =
            Keyed.find? delegation.zone (summariesOf (file.runs servers))) :
    runs { file with groups } servers = groups.flatMap (file.ran servers) := by
  have hprefix (before after : List GroupSpec) (h : groups = before ++ after) :
      runsAfter { file with groups } servers [] [] before = before.flatMap (file.ran servers) := by
    induction before using List.reverseRecOn generalizing after with
    | nil => rfl
    | append_singleton before group ih =>
      rw [List.append_assoc, List.singleton_append] at h
      have hbefore := ih _ h
      have hnames : ∀ spec ∈ group.zones, spec.name ∉ (before.flatMap GroupSpec.zones).map ZoneSpec.name := by
        intro spec hspec hmem
        rw [h] at hapart
        obtain ⟨other, hother, hname⟩ := List.mem_flatMap.mp (List.map_flatMap ▸ hmem)
        have hboth := (List.pairwise_append.mp hapart).2.2 other hother group (List.mem_cons_self ..)
        exact hboth _ hname (List.mem_map_of_mem hspec)
      rw [runsAfter_append, hbefore, List.flatMap_append, List.nil_append, List.nil_append, runsAfter, runsAfter,
        groupRuns_reordered hperm, Building.calls_congr (hfound before group after h hbefore), List.flatMap_singleton,
        List.append_nil, ran, ← groupRuns_append_before hnames [], List.append_nil]
  rw [runs, hprefix groups [] (List.append_nil _).symm]

/-! ### Builds in another order -/

variable {stack : Stack}

/-- A delegation of a file that builds finds among the zones before what it finds among all. -/
theorem find?_summariesOf_before {before after : List GroupSpec} {delegation : DelegationSpec}
    (h : file.build servers = .ok stack) (hgroups : file.groups = before ++ group :: after)
    (hdelegation : delegation ∈ group.delegations) :
    Keyed.find? delegation.zone (summariesOf (file.runsAfter servers [] [] before)) =
      Keyed.find? delegation.zone (summariesOf (file.runs servers)) := by
  have hgroup : group ∈ file.groups := by simp [hgroups]
  obtain ⟨spec, hspec⟩ := List.exists_mem_of_ne_nil _ (zones_ne_nil_of_build h hgroup)
  obtain ⟨zones, zone, lookUp, earlier, later, hzones, halone, -⟩ := member_of_build h hgroups hspec
  obtain ⟨child, summary, -, hfound, -⟩ := exists_child hgroups hdelegation hzones halone
  obtain ⟨more, hmore⟩ : ∃ more, file.runs servers = file.runsAfter servers [] [] before ++ more :=
    ⟨_, by rw [runs, hgroups, runsAfter_append]⟩
  have hsplit : summariesOf (zones.map .ok ++ more) = summariesOf (zones.map .ok) ++ summariesOf more :=
    List.filterMap_append
  rw [hmore, hzones, hsplit, Keyed.find?_append, hfound, Option.some_or]

theorem runs_eq_flatMap_ran (h : file.build servers = .ok stack) (hapart : file.groups.Pairwise GroupSpec.Apart) :
    file.runs servers = file.groups.flatMap (file.ran servers) := by
  refine runs_reordered (List.Perm.refl _) hapart fun before group after hgroups hbefore delegation hdelegation => ?_
  rw [← hbefore]
  exact find?_summariesOf_before h hgroups hdelegation

/-- The runs of a file in another order of its groups, where delegations are still to earlier
groups. -/
theorem runs_reordered_of_build (h : file.build servers = .ok stack) (hapart : file.groups.Pairwise GroupSpec.Apart)
    (hperm : groups.Perm file.groups) (hback : DelegatesBack groups) :
    runs { file with groups } servers = groups.flatMap (file.ran servers) := by
  have hapart' : groups.Pairwise GroupSpec.Apart := (hperm.pairwise_iff GroupSpec.Apart.symm).mpr hapart
  refine runs_reordered hperm hapart' fun before group after hgroups _ delegation hdelegation => ?_
  obtain ⟨earlier, hearlier, hname⟩ := hback before group after hgroups delegation hdelegation
  have hmem : earlier ∈ groups := by
    rw [hgroups]
    exact List.mem_append_left _ hearlier
  rw [hgroups] at hapart'
  rw [runs_eq_flatMap_ran h hapart, find?_summariesOf_flatMap_ran hapart (hperm.mem_iff.mp hmem) hname,
    find?_summariesOf_flatMap_ran (List.pairwise_append.mp hapart').1 hearlier hname]

def built (file : DeploymentFile) (servers : List Server) (group : GroupSpec) : List Zone :=
  (file.ran servers group).filterMap Except.toOption

theorem ran_eq_map_built (h : file.build servers = .ok stack) (hapart : file.groups.Pairwise GroupSpec.Apart)
    (hgroup : group ∈ file.groups) : file.ran servers group = (file.built servers group).map .ok := by
  obtain ⟨aliases, zones, -, hruns, -⟩ := build_ok h
  rw [runs_eq_flatMap_ran h hapart] at hruns
  have hall : ∀ run ∈ file.ran servers group, ∃ zone, run = .ok zone := by
    intro run hrun
    have hmem := List.mem_flatMap.mpr ⟨group, hgroup, hrun⟩
    rw [hruns] at hmem
    obtain ⟨zone, -, rfl⟩ := List.mem_map.mp hmem
    exact ⟨zone, rfl⟩
  unfold built
  generalize file.ran servers group = ran at hall
  induction ran with
  | nil => rfl
  | cons run rest ih =>
    obtain ⟨⟨zone, rfl⟩, hrest⟩ := List.forall_mem_cons.mp hall
    exact congrArg (.ok zone :: ·) (ih hrest)

theorem flatMap_ran_eq (h : file.build servers = .ok stack) (hapart : file.groups.Pairwise GroupSpec.Apart)
    (hgroups : ∀ group ∈ groups, group ∈ file.groups) :
    groups.flatMap (file.ran servers) = (groups.flatMap (file.built servers)).map .ok := by
  rw [List.map_flatMap]
  exact List.flatMap_congr fun group hgroup => ran_eq_map_built h hapart (hgroups group hgroup)

theorem outputs_flatMap {zones : GroupSpec → List Zone} (h : ∀ group ∈ groups, group.zones.length = (zones group).length) :
    ZoneSpec.outputs (groups.flatMap GroupSpec.zones) (groups.flatMap zones) =
      groups.flatMap fun group => ZoneSpec.outputs group.zones (zones group) := by
  induction groups with
  | nil => rfl
  | cons group rest ih =>
    obtain ⟨hgroup, hrest⟩ := List.forall_mem_cons.mp h
    rw [List.flatMap_cons, List.flatMap_cons, List.flatMap_cons, ZoneSpec.outputs_append hgroup, ih hrest]

theorem outputs_perm (h : file.build servers = .ok stack) (hapart : file.groups.Pairwise GroupSpec.Apart)
    (hperm : groups.Perm file.groups) :
    (ZoneSpec.outputs (groups.flatMap GroupSpec.zones) (groups.flatMap (file.built servers))).Perm
      (ZoneSpec.outputs file.zoneSpecs (file.groups.flatMap (file.built servers))) := by
  have hlength : ∀ group ∈ file.groups, group.zones.length = (file.built servers group).length :=
    fun group hgroup => length_of_groupRuns (ran_eq_map_built h hapart hgroup)
  rw [zoneSpecs, outputs_flatMap hlength, outputs_flatMap fun group hgroup => hlength group (hperm.mem_iff.mp hgroup)]
  exact hperm.flatMap_right _

theorem resources_perm (hperm : groups.Perm file.groups) (aliases : List Resource) :
    (aliases ++ (groups.flatMap (file.built servers)).flatMap (·.resources.toList)).Perm
      (aliases ++ (file.groups.flatMap (file.built servers)).flatMap (·.resources.toList)) :=
  ((hperm.flatMap_right _).flatMap_right _).append_left aliases

/-- A build in any order has come as far as the zones of all groups, in that order. -/
theorem reached_reordered {next : Stack} (h : build { file with groups } servers = .ok next)
    (hruns : runs { file with groups } servers = (groups.flatMap (file.built servers)).map .ok) :
    ∃ aliases building, file.keyAliases = .ok aliases ∧ building.stack = next ∧
      Building.Reached { file with groups } aliases (groups.flatMap GroupSpec.zones)
        (groups.flatMap (file.built servers)) building := by
  obtain ⟨aliases, zones, building, haliases, hzones, rfl, hreached⟩ := reached_of_build h
  obtain rfl : groups.flatMap (file.built servers) = zones :=
    List.map_injective_iff.mpr (fun _ _ => Except.ok.inj) (hruns.symm.trans hzones)
  exact ⟨aliases, building, haliases, rfl, hreached⟩

/-- What a build needs, a file has in any order of its groups if it has it in one. -/
theorem exists_build_reordered (h : file.build servers = .ok stack) (hapart : file.groups.Pairwise GroupSpec.Apart)
    (hperm : groups.Perm file.groups)
    (hruns : runs { file with groups } servers = (groups.flatMap (file.built servers)).map .ok) :
    ∃ next, build { file with groups } servers = .ok next := by
  have hzones := (runs_eq_flatMap_ran h hapart).trans (flatMap_ran_eq h hapart fun _ => id)
  obtain ⟨aliases, building, haliases, rfl, hreached⟩ := reached_reordered h hzones
  have hne : ∀ group ∈ groups, group.zones ≠ [] := fun group hgroup => zones_ne_nil_of_build h (hperm.mem_iff.mp hgroup)
  have hpaths := building.stack.resources.nodup
  rw [hreached.resources, ← ((resources_perm hperm aliases).map Resource.path).nodup_iff] at hpaths
  have hnames := ((outputs_perm h hapart hperm).map Prod.fst).nodup_iff.mpr hreached.distinct
  exact exists_build_iff.mpr ⟨aliases, _, haliases, hruns, hne, hreached.named, hpaths, hnames⟩

/-- The order of groups does not matter to a file that builds, where no zone name is in two
groups and each delegation is still to an earlier group. -/
theorem build_reordered (h : file.build servers = .ok stack) (hapart : file.groups.Pairwise GroupSpec.Apart)
    (hperm : groups.Perm file.groups) (hback : DelegatesBack groups) :
    ∃ next, build { file with groups } servers = .ok next ∧
      next.resources.toList.Perm stack.resources.toList ∧ next.outputs = stack.outputs ∧
      ((stack.resources.toList.map fun resource => (resource.kind, resource.logicalId)).Nodup →
        next.synth = stack.synth) := by
  have hzones := (runs_eq_flatMap_ran h hapart).trans (flatMap_ran_eq h hapart fun _ => id)
  have hzones' := (runs_reordered_of_build h hapart hperm hback).trans
    (flatMap_ran_eq h hapart fun group => hperm.mem_iff.mp)
  obtain ⟨next, hnext⟩ := exists_build_reordered h hapart hperm hzones'
  have hputs := outputs_perm h hapart hperm
  obtain ⟨aliases, building, haliases, rfl, hreached⟩ := reached_reordered h hzones
  obtain ⟨same, building', hsame, rfl, hreached'⟩ := reached_reordered hnext hzones'
  obtain rfl : aliases = same := Except.ok.inj (haliases.symm.trans hsame)
  have hresources : building'.stack.resources.toList.Perm building.stack.resources.toList := by
    rw [hreached'.resources, hreached.resources]
    exact resources_perm hperm aliases
  have houtputs : building'.stack.outputs = building.stack.outputs := by
    rw [hreached'.outputs, hreached.outputs]
    exact Keyed.ofList_eq_of_perm hreached'.distinct hputs
  have hproviders : building'.stack.providers = building.stack.providers := by
    rw [hreached'.table, hreached.table]
    rfl
  exact ⟨building'.stack, hnext, hresources, houtputs, Stack.synth_eq_of_perm hproviders houtputs hresources⟩

/-- A zone apart may come before a child and its parent or after them. -/
theorem build_reordered_enxio :
    ∃ (file : DeploymentFile) (child parent other : GroupSpec) (stack next : Stack),
      file.groups = [child, parent, other] ∧ parent.delegations ≠ [] ∧ file.build [] = .ok stack ∧
      build { file with groups := [other, child, parent] } [] = .ok next ∧
      next.resources.toList ≠ stack.resources.toList ∧ next.resources.toList.Perm stack.resources.toList ∧
      next.outputs = stack.outputs ∧ next.synth = stack.synth := by
  let child : GroupSpec :=
    { zones := [{ backend := .route53, name := "acme.luffy.cx", provider := "main", sign := true,
                  signingKey := some "dns-cmk", outputZoneId := some "acme-zone" }] }
  let parent : GroupSpec :=
    { zones := [{ backend := .livedns, name := "luffy.cx", provider := "vb", sign := true }],
      delegations := [⟨"acme", "acme.luffy.cx"⟩] }
  let other : GroupSpec :=
    { zones := [{ backend := .route53, name := "enxio.fr", provider := "main", outputZoneId := some "enxio-zone" }] }
  let file : DeploymentFile := { sampleFile with groups := [child, parent, other] }
  have hdistinct : ((file.build []).toOption.map fun stack =>
      decide (stack.resources.toList.map fun resource => (resource.kind, resource.logicalId)).Nodup) = some true := by
    decide +kernel
  have hdiffer : ((build { file with groups := [other, child, parent] } []).toOption.map (·.resources.paths)) ≠
      (file.build []).toOption.map (·.resources.paths) := by
    decide +kernel
  have hapart : file.groups.Pairwise GroupSpec.Apart := by
    simp [file, child, parent, other, GroupSpec.Apart, GroupSpec.names]
  have hback : DelegatesBack [other, child, parent] :=
    ((DelegatesBack.nil.concat (by simp [other])).concat (by simp [child])).concat
      (by simp [parent, child, GroupSpec.names])
  obtain ⟨stack, hbuild, hdistinct⟩ := Step.exists_ok_of_toOption hdistinct
  obtain ⟨next, hnext, hresources, houtputs, hsynth⟩ :=
    build_reordered hbuild hapart (List.perm_append_singleton other [child, parent]).symm hback
  rw [hbuild, hnext] at hdiffer
  refine ⟨file, child, parent, other, stack, next, rfl, by simp [parent], hbuild, hnext, ?_, hresources, houtputs,
    hsynth (of_decide_eq_true hdistinct)⟩
  intro hsame
  exact hdiffer (congrArg (fun resources : List Resource => some (resources.map Resource.path)) hsame)

end DeploymentFile

end ZoneGraph
