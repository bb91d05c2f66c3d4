import ZoneGraph.Geo.Partition
import ZoneGraph.Proofs.Runs

/-! The first bucket of a partition. It answers everybody and holds all servers, and no
other bucket is for the same place. -/
namespace ZoneGraph.GeoBucket

theorem mem_of_taggings {servers : List ServerRef} {taggings : List (GeoLocation × ServerRef)}
    (h : GeoBucket.taggings servers = .ok taggings) : ∀ tagging ∈ taggings, tagging.2 ∈ servers := by
  induction servers generalizing taggings with
  | nil =>
    cases h
    simp
  | cons ref rest ih =>
    obtain ⟨places, -, h⟩ := Step.except_bind_eq_ok.mp h
    obtain ⟨more, hmore, h⟩ := Step.except_bind_eq_ok.mp h
    cases h
    intro tagging hmem
    rcases List.mem_append.mp hmem with hown | hlater
    · obtain ⟨place, -, rfl⟩ := List.mem_map.mp hown
      simp
    · exact List.mem_cons_of_mem _ (ih hmore tagging hlater)

theorem add_of_mem {bucket : GeoBucket} {ref : ServerRef} (h : ref ∈ bucket.servers) : bucket.add ref = bucket := by
  rw [add, if_pos]
  exact List.any_eq_true.mpr ⟨ref, h, by simp⟩

theorem location_add (ref : ServerRef) (bucket : GeoBucket) : (bucket.add ref).location = bucket.location := by
  unfold add
  split <;> rfl

/-- A tag adds to the bucket of its place, or makes that bucket at the end. -/
theorem map_location_addTo (location : GeoLocation) (ref : ServerRef) (buckets : List GeoBucket) :
    (addTo location ref buckets).map GeoBucket.location =
      if location ∈ buckets.map GeoBucket.location then buckets.map GeoBucket.location
      else buckets.map GeoBucket.location ++ [location] := by
  induction buckets with
  | nil => simp [addTo]
  | cons bucket rest ih =>
    unfold addTo
    split
    · rename_i heq
      simp [location_add, heq]
    · rename_i hne
      rw [List.map_cons, ih, List.map_cons]
      have hne' : location ≠ bucket.location := fun h => hne h.symm
      by_cases hmem : location ∈ rest.map GeoBucket.location <;> simp [hmem, hne']

/-- A tag leaves a first bucket alone that has the server already. -/
theorem addTo_cons_of_mem {first : GeoBucket} {ref : ServerRef} (h : ref ∈ first.servers)
    (location : GeoLocation) (rest : List GeoBucket) :
    ∃ rest', addTo location ref (first :: rest) = first :: rest' := by
  unfold addTo
  split
  · exact ⟨rest, by rw [add_of_mem h]⟩
  · exact ⟨_, rfl⟩

/-- Places stay distinct while tags are added. -/
theorem nodup_foldl_addTo (taggings : List (GeoLocation × ServerRef)) {buckets : List GeoBucket}
    (h : (buckets.map GeoBucket.location).Nodup) :
    ((taggings.foldl (fun buckets tagging => addTo tagging.1 tagging.2 buckets) buckets).map
      GeoBucket.location).Nodup := by
  induction taggings generalizing buckets with
  | nil => exact h
  | cons tagging rest ih =>
    refine ih ?_
    rw [map_location_addTo]
    split
    · exact h
    · rename_i hfresh
      rw [List.nodup_append]
      refine ⟨h, by simp, ?_⟩
      rintro place hplace _ hother rfl
      rw [List.mem_singleton] at hother
      exact hfresh (hother ▸ hplace)

theorem foldl_addTo_cons (first : GeoBucket) (taggings : List (GeoLocation × ServerRef))
    (h : ∀ tagging ∈ taggings, tagging.2 ∈ first.servers) (rest : List GeoBucket) :
    ∃ rest', taggings.foldl (fun buckets tagging => addTo tagging.1 tagging.2 buckets) (first :: rest) =
      first :: rest' := by
  induction taggings generalizing rest with
  | nil => exact ⟨rest, rfl⟩
  | cons tagging others ih =>
    obtain ⟨hown, hothers⟩ := List.forall_mem_cons.mp h
    obtain ⟨next, hnext⟩ := addTo_cons_of_mem hown tagging.1 rest
    rw [List.foldl_cons, hnext]
    exact ih hothers next

/-- The bucket that answers everybody comes first, with all servers, and every other
bucket is for another place. -/
theorem partition_eq_cons {servers : List ServerRef} {buckets : List GeoBucket}
    (h : partition servers = .ok buckets) :
    ∃ rest, buckets = ⟨.defaultAnswer, servers⟩ :: rest ∧
      ∀ bucket ∈ rest, bucket.location ≠ .defaultAnswer := by
  obtain ⟨taggings, ht, h⟩ := Step.except_bind_eq_ok.mp h
  cases h
  have hfirst : ([⟨.defaultAnswer, servers⟩].map GeoBucket.location).Nodup := by simp
  have hnodup := nodup_foldl_addTo taggings hfirst
  obtain ⟨rest, hrest⟩ := foldl_addTo_cons ⟨.defaultAnswer, servers⟩ taggings (mem_of_taggings ht) []
  rw [hrest] at hnodup ⊢
  refine ⟨rest, rfl, fun bucket hmem heq => ?_⟩
  rw [List.map_cons, List.nodup_cons] at hnodup
  exact hnodup.1 (List.mem_map.mpr ⟨bucket, hmem, heq⟩)

end ZoneGraph.GeoBucket
