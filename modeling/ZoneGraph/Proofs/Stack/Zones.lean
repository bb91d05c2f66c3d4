import ZoneGraph.Cli.Report
import ZoneGraph.Proofs.FirstOccurrences
import ZoneGraph.Proofs.Stack.Declarations
import Mathlib.Algebra.BigOperators.Group.Finset.Basic
import Mathlib.Algebra.GroupWithZero.Nat

/-! The zones of a stack and what is counted for each of them. A zone is named once, where
the first of its resources stands. A resource counts for the zone it names, if any, and a
record is published for the zone of its resource, so records need no further zones. -/
namespace ZoneGraph

/-- If some distinct keys cover a list then it is counted whole, key by key. -/
theorem sum_map_count {α : Type} [DecidableEq α] {keys values : List α} (hkeys : keys.Nodup)
    (hcover : ∀ value ∈ values, value ∈ keys) : (keys.map fun key => values.count key).sum = values.length := by
  have hall := Multiset.sum_count_eq_card (s := keys.toFinset) (m := values) fun value hvalue =>
    List.mem_toFinset.mpr (hcover value hvalue)
  rw [← List.sum_toFinset _ hkeys]
  simpa only [Multiset.coe_count, Multiset.coe_card] using hall

namespace Stack

variable (stack : Stack)

/-! ### Names of zones -/

def zoneNames : List String := stack.resources.toList.filterMap Resource.zone

theorem zones_eq : stack.zones = stack.zoneNames.eraseDups := by
  change stack.zoneNames.foldl addNew [] = _
  induction stack.zoneNames using List.reverseRecOn with
  | nil => rfl
  | append_singleton names name ih =>
    rw [List.foldl_concat, ih, addNew, eraseDups_concat]
    exact if_congr List.mem_eraseDups rfl rfl

theorem nodup_zones : stack.zones.Nodup := by
  rw [zones_eq]
  exact nodup_eraseDups _

variable {stack} in
theorem mem_zones {name : String} :
    name ∈ stack.zones ↔ ∃ resource ∈ stack.resources.toList, resource.zone = some name := by
  rw [zones_eq, List.mem_eraseDups, zoneNames, List.mem_filterMap]

theorem zones_ordered : stack.zones.Pairwise fun first second =>
    stack.resources.toList.findIdx (fun resource => resource.zone = some first) <
      stack.resources.toList.findIdx fun resource => resource.zone = some second := by
  rw [zones_eq]
  exact pairwise_findIdx_eraseDups Resource.zone stack.resources.toList

/-! ### Records -/

variable {stack} in
theorem zone_mem_of_mem_records {record : Published} (h : record ∈ stack.records) : record.zone ∈ stack.zones := by
  obtain ⟨resource, hresource, hrecord⟩ := List.mem_filterMap.mp h
  simp only [Published.ofResource?, Option.bind_eq_bind, Option.bind_eq_some_iff] at hrecord
  obtain ⟨key, -, data, -, values, -, zone, hzone, name, -, text, -, type, -, time, -, ttl, -, hrecord⟩ := hrecord
  cases hrecord
  exact mem_zones.mpr ⟨resource, hresource, hzone⟩

end Stack

/-! ### Counts -/

namespace Cli

variable (stack : Stack)

theorem resources_countZone (name : String) : (countZone stack name).resources = stack.zoneNames.count name := by
  rw [Stack.zoneNames, List.count_filterMap, List.countP_eq_length_filter]
  refine congrArg List.length (List.filter_congr fun resource _ => ?_)
  rw [Bool.eq_iff_iff, decide_eq_true_iff, beq_iff_eq]

theorem records_countZone (name : String) :
    (countZone stack name).records = (stack.records.map Published.zone).count name := by
  rw [List.count, List.countP_map, List.countP_eq_length_filter]
  rfl

theorem sum_resources : ((countStack stack).zones.map ZoneCount.resources).sum = stack.zoneNames.length := by
  have hcount : (countStack stack).zones.map ZoneCount.resources = stack.zones.map (stack.zoneNames.count ·) := by
    rw [countStack, List.map_map]
    exact List.map_congr_left fun name _ => resources_countZone stack name
  rw [hcount, sum_map_count stack.nodup_zones]
  intro name hname
  rw [Stack.zones_eq]
  exact List.mem_eraseDups.mpr hname

theorem sum_records : ((countStack stack).zones.map ZoneCount.records).sum = stack.records.length := by
  have hcount : (countStack stack).zones.map ZoneCount.records =
      stack.zones.map ((stack.records.map Published.zone).count ·) := by
    rw [countStack, List.map_map]
    exact List.map_congr_left fun name _ => records_countZone stack name
  rw [hcount, sum_map_count stack.nodup_zones, List.length_map]
  rw [List.forall_mem_map]
  exact fun record => Stack.zone_mem_of_mem_records

theorem zones_countStack : (countStack stack).zones.map ZoneCount.zone = stack.zones := by
  rw [countStack, List.map_map]
  exact List.map_id _

end Cli

end ZoneGraph
