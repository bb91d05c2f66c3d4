import ZoneGraph.Proofs.FirstOccurrences
import ZoneGraph.Proofs.Geo.Buckets
import ZoneGraph.Proofs.Geo.Tags

/-! The partition of servers by place, in full. It is refused for the first tag that is
malformed. Else the bucket for everybody else holds the servers as they were given, and
after it there is one bucket for each other place that some tag names, in the order in
which the tags first name them. It holds the servers with that tag, in order and each of
them once. -/
namespace ZoneGraph.GeoBucket

variable {servers refs : List ServerRef} {ref : ServerRef} {location other : GeoLocation} {buckets : List GeoBucket}

/-! ### One server -/

theorem mem_named {tags : List String} :
    location ∈ tags.filterMap GeoLocation.named? ↔ location.value ≠ "" ∧ location.key ∈ tags := by
  rw [List.mem_filterMap]
  constructor
  · rintro ⟨tag, htag, hnamed⟩
    obtain ⟨rfl, hvalue⟩ := GeoLocation.named?_eq_some.mp hnamed
    exact ⟨hvalue, htag⟩
  · rintro ⟨hvalue, htag⟩
    exact ⟨_, htag, GeoLocation.named?_eq_some.mpr ⟨rfl, hvalue⟩⟩

def namedBy (ref : ServerRef) : List GeoLocation := ref.server.tags.filterMap GeoLocation.named?

def withRef (ref : ServerRef) (refs : List ServerRef) : List ServerRef :=
  if refs.any (·.place = ref.place) then refs else refs ++ [ref]

theorem withRef_withRef (ref : ServerRef) (refs : List ServerRef) :
    withRef ref (withRef ref refs) = withRef ref refs := by
  unfold withRef
  split
  · rfl
  · rw [if_pos (by simp)]

theorem servers_add (ref : ServerRef) (bucket : GeoBucket) : (bucket.add ref).servers = withRef ref bucket.servers := by
  unfold add withRef
  split <;> rfl

/-- The servers that answer clients of a place, none if there is no bucket for it. -/
def serversOf (location : GeoLocation) (buckets : List GeoBucket) : List ServerRef :=
  ((buckets.find? (·.location = location)).map GeoBucket.servers).getD []

theorem serversOf_cons (bucket : GeoBucket) (rest : List GeoBucket) :
    serversOf location (bucket :: rest) =
      if bucket.location = location then bucket.servers else serversOf location rest := by
  unfold serversOf
  rw [List.find?_cons]
  by_cases h : bucket.location = location <;> simp [h]

theorem serversOf_of_mem {bucket : GeoBucket} (hnodup : (buckets.map GeoBucket.location).Nodup)
    (h : bucket ∈ buckets) : serversOf bucket.location buckets = bucket.servers := by
  induction buckets with
  | nil => cases h
  | cons first rest ih =>
    rw [List.map_cons, List.nodup_cons] at hnodup
    rw [serversOf_cons]
    rcases List.mem_cons.mp h with rfl | hrest
    · exact if_pos rfl
    · have hother : first.location ≠ bucket.location := fun hsame =>
        hnodup.1 (List.mem_map.mpr ⟨bucket, hrest, hsame.symm⟩)
      rw [if_neg hother, ih hnodup.2 hrest]

theorem serversOf_addTo (ref : ServerRef) (buckets : List GeoBucket) :
    serversOf location (addTo other ref buckets) =
      if other = location then withRef ref (serversOf location buckets) else serversOf location buckets := by
  induction buckets with
  | nil =>
    rw [addTo, serversOf_cons]
    rfl
  | cons bucket rest ih =>
    unfold addTo
    split
    · rename_i hsame
      subst hsame
      rw [serversOf_cons, serversOf_cons, location_add, servers_add]
      split <;> rfl
    · rename_i hother
      rw [serversOf_cons, serversOf_cons, ih]
      by_cases hlocation : bucket.location = location
      · have hne : other ≠ location := fun hsame => hother (hlocation.trans hsame.symm)
        rw [if_pos hlocation, if_pos hlocation, if_neg hne]
      · rw [if_neg hlocation, if_neg hlocation]

/-- Adds the servers of some taggings to the buckets of the places that they name. -/
def addAll (taggings : List (GeoLocation × ServerRef)) (buckets : List GeoBucket) : List GeoBucket :=
  taggings.foldl (fun buckets tagging => addTo tagging.1 tagging.2 buckets) buckets

/-- A server is added to the bucket of a place once, however often it names the place. -/
theorem serversOf_addAll_places (places : List GeoLocation) (ref : ServerRef) (buckets : List GeoBucket) :
    serversOf location (addAll (places.map (·, ref)) buckets) =
      if location ∈ places then withRef ref (serversOf location buckets) else serversOf location buckets := by
  induction places generalizing buckets with
  | nil => simp [addAll]
  | cons place rest ih =>
    rw [List.map_cons, addAll, List.foldl_cons, ← addAll, ih, serversOf_addTo]
    by_cases hplace : place = location
    · subst hplace
      simp [withRef_withRef]
    · have hmem : location ∈ place :: rest ↔ location ∈ rest := by simp [Ne.symm hplace]
      rw [if_neg hplace, if_congr hmem rfl rfl]

/-! ### All servers -/

def tagsOf (servers : List ServerRef) : List String := servers.flatMap (·.server.tags)

/-- Each tag that names a place, with the server that carries it. -/
def namings (servers : List ServerRef) : List (GeoLocation × ServerRef) :=
  servers.flatMap fun ref => (namedBy ref).map (·, ref)

theorem map_fst_namings (servers : List ServerRef) :
    (namings servers).map Prod.fst = (tagsOf servers).filterMap GeoLocation.named? := by
  simp only [namings, tagsOf, List.map_flatMap, List.map_map, List.filterMap_flatMap]
  refine List.flatMap_congr fun ref _ => ?_
  exact List.map_id' _

/-- Each server with a tag of a place is added to the bucket of that place, once. -/
theorem serversOf_addAll_namings (servers : List ServerRef) (h : serversOf location buckets = []) :
    serversOf location (addAll (namings servers) buckets) =
      (servers.filter fun ref => location ∈ namedBy ref).eraseDupsBy fun ref other => other.place = ref.place := by
  induction servers using List.reverseRecOn with
  | nil => exact h
  | append_singleton servers ref ih =>
    have hnamings : namings (servers ++ [ref]) = namings servers ++ (namedBy ref).map (·, ref) := by simp [namings]
    rw [hnamings, addAll, List.foldl_append, ← addAll, ← addAll, serversOf_addAll_places, ih, List.filter_append]
    by_cases hnamed : location ∈ namedBy ref
    · have hsingle : [ref].filter (fun ref => location ∈ namedBy ref) = [ref] := by simp [hnamed]
      rw [if_pos hnamed, hsingle, eraseDupsBy_concat]
      rfl
    · have hnone : [ref].filter (fun ref => location ∈ namedBy ref) = [] := by simp [hnamed]
      rw [if_neg hnamed, hnone, List.append_nil]

/-- The places of the buckets, in the order in which they were first named. -/
theorem map_location_addAll (taggings : List (GeoLocation × ServerRef)) (first : GeoBucket) :
    (addAll taggings [first]).map GeoBucket.location = (first.location :: taggings.map Prod.fst).eraseDups := by
  induction taggings using List.reverseRecOn with
  | nil => rfl
  | append_singleton taggings tagging ih =>
    rw [addAll, List.foldl_append, List.foldl_cons, List.foldl_nil, ← addAll, map_location_addTo, ih, List.map_append,
      List.map_singleton, ← List.cons_append, eraseDups_concat]
    exact if_congr List.mem_eraseDups rfl rfl

/-- Places whose first namings follow each other have keys whose first tags do. -/
theorem idxOf_key_lt {tags : List String} {first second : GeoLocation} (hfirst : first.value ≠ "")
    (hsecond : second.value ≠ "")
    (hlt : (tags.filterMap GeoLocation.named?).idxOf first < (tags.filterMap GeoLocation.named?).idxOf second) :
    tags.idxOf first.key < tags.idxOf second.key := by
  induction tags with
  | nil => exact absurd hlt (Nat.lt_irrefl _)
  | cons tag rest ih =>
    have hkey : ∀ {location : GeoLocation}, location.value ≠ "" → GeoLocation.named? tag ≠ some location →
        tag ≠ location.key := by
      rintro location hvalue hnamed rfl
      exact hnamed (GeoLocation.named?_eq_some.mpr ⟨rfl, hvalue⟩)
    cases hnamed : GeoLocation.named? tag with
    | none =>
      rw [List.filterMap_cons_none hnamed] at hlt
      rw [List.idxOf_cons_ne _ (hkey hfirst (by simp [hnamed])),
        List.idxOf_cons_ne _ (hkey hsecond (by simp [hnamed]))]
      exact Nat.succ_lt_succ (ih hlt)
    | some found =>
      rw [List.filterMap_cons_some hnamed] at hlt
      have hfound : found ≠ second := by
        rintro rfl
        rw [List.idxOf_cons_self] at hlt
        exact Nat.not_lt_zero _ hlt
      rw [List.idxOf_cons_ne _ hfound] at hlt
      rw [List.idxOf_cons_ne _ (hkey hsecond (by simp [hnamed, hfound]))]
      by_cases hsame : found = first
      · obtain ⟨rfl, -⟩ := GeoLocation.named?_eq_some.mp hnamed
        rw [hsame, List.idxOf_cons_self]
        exact Nat.succ_pos _
      · rw [List.idxOf_cons_ne _ hsame] at hlt
        rw [List.idxOf_cons_ne _ (hkey hfirst (by simp [hnamed, hsame]))]
        exact Nat.succ_lt_succ (ih (Nat.lt_of_succ_lt_succ hlt))

/-! ### Tags that are malformed -/

/-- Whether a tag of a server is the first of all tags to be malformed. -/
def FirstMalformed (servers : List ServerRef) (server tag : String) : Prop :=
  ∃ before ref after earlier later, servers = before ++ ref :: after ∧ ref.server.tags = earlier ++ tag :: later ∧
    (∀ tag ∈ tagsOf before ++ earlier, ¬ MalformedTag tag) ∧ MalformedTag tag ∧ server = ref.server.name

theorem exists_firstMalformed (h : ∃ tag ∈ tagsOf servers, MalformedTag tag) :
    ∃ server tag, FirstMalformed servers server tag := by
  induction servers with
  | nil => simp [tagsOf] at h
  | cons ref rest ih =>
    by_cases hown : ∃ tag ∈ ref.server.tags, MalformedTag tag
    · obtain ⟨earlier, tag, later, htags, hearlier, htag⟩ := exists_first hown
      exact ⟨ref.server.name, tag, [], ref, rest, earlier, later, rfl, htags, hearlier, htag, rfl⟩
    · have hnone : ∀ tag ∈ ref.server.tags, ¬ MalformedTag tag := fun tag htag hbad => hown ⟨tag, htag, hbad⟩
      rw [tagsOf, List.flatMap_cons] at h
      obtain ⟨tag, htag, hbad⟩ := h
      have hrest : tag ∈ tagsOf rest := (List.mem_append.mp htag).resolve_left fun hmem => hnone tag hmem hbad
      obtain ⟨server, tag, before, found, after, earlier, later, rfl, htags, hbefore, hfirst⟩ := ih ⟨tag, hrest, hbad⟩
      refine ⟨server, tag, ref :: before, found, after, earlier, later, rfl, htags, ?_, hfirst⟩
      rw [tagsOf, List.flatMap_cons, List.append_assoc, List.forall_mem_append]
      exact ⟨hnone, hbefore⟩

theorem taggings_of_wellFormed (h : ∀ tag ∈ tagsOf servers, ¬ MalformedTag tag) :
    taggings servers = .ok (namings servers) := by
  induction servers with
  | nil => rfl
  | cons ref rest ih =>
    rw [tagsOf, List.flatMap_cons, List.forall_mem_append] at h
    rw [taggings, Server.places, placesOfTags_of_wellFormed _ h.1, ih h.2]
    rfl

theorem taggings_of_firstMalformed {server tag : String} (h : FirstMalformed servers server tag) :
    taggings servers = .error (.malformedGeoTag server tag) := by
  obtain ⟨before, ref, after, earlier, later, rfl, htags, hbefore, htag, rfl⟩ := h
  induction before with
  | nil =>
    have hearlier : ∀ tag ∈ earlier, ¬ MalformedTag tag := hbefore
    rw [List.nil_append, taggings, Server.places, htags, placesOfTags_of_malformed _ hearlier htag]
    rfl
  | cons first rest ih =>
    rw [tagsOf, List.flatMap_cons, List.append_assoc, List.forall_mem_append] at hbefore
    rw [List.cons_append, taggings, Server.places, placesOfTags_of_wellFormed _ hbefore.1, ih hbefore.2]
    rfl

/-! ### The partition -/

theorem partition_of_wellFormed (h : ∀ tag ∈ tagsOf servers, ¬ MalformedTag tag) :
    partition servers = .ok (addAll (namings servers) [⟨.defaultAnswer, servers⟩]) := by
  rw [partition, taggings_of_wellFormed h]
  rfl

theorem partition_of_firstMalformed {server tag : String} (h : FirstMalformed servers server tag) :
    partition servers = .error (.malformedGeoTag server tag) := by
  rw [partition, taggings_of_firstMalformed h]
  rfl

theorem partition_eq_ok (h : partition servers = .ok buckets) :
    (∀ tag ∈ tagsOf servers, ¬ MalformedTag tag) ∧ buckets = addAll (namings servers) [⟨.defaultAnswer, servers⟩] := by
  by_cases hmalformed : ∃ tag ∈ tagsOf servers, MalformedTag tag
  · obtain ⟨server, tag, hfirst⟩ := exists_firstMalformed hmalformed
    rw [partition_of_firstMalformed hfirst] at h
    cases h
  · have hread : ∀ tag ∈ tagsOf servers, ¬ MalformedTag tag := fun tag htag hbad => hmalformed ⟨tag, htag, hbad⟩
    rw [partition_of_wellFormed hread] at h
    exact ⟨hread, (Except.ok.inj h).symm⟩

/-- Whether buckets are those of the places that some tags name, other than the place that
stands for everybody else. -/
structure NamedBuckets (servers : List ServerRef) (rest : List GeoBucket) : Prop where
  nodup : (rest.map GeoBucket.location).Nodup
  location : ∀ location, location ∈ rest.map GeoBucket.location ↔
    location ≠ ⟨.country, "*"⟩ ∧ location.value ≠ "" ∧ location.key ∈ tagsOf servers
  /-- The buckets stand in the order in which their places are first named. -/
  order : rest.Pairwise fun first second =>
    (tagsOf servers).idxOf first.location.key < (tagsOf servers).idxOf second.location.key
  /-- A bucket holds the servers with its tag, in order, each place of the inventory once. -/
  servers : ∀ bucket ∈ rest, bucket.servers =
    (servers.filter fun ref => bucket.location.key ∈ ref.server.tags).eraseDupsBy
      fun ref other => other.place = ref.place

/-- The places of all buckets are those that are named, without repetitions. -/
theorem locations_of_partition {rest : List GeoBucket} (h : partition servers = .ok (⟨.defaultAnswer, servers⟩ :: rest)) :
    .defaultAnswer :: rest.map GeoBucket.location =
      (.defaultAnswer :: (tagsOf servers).filterMap GeoLocation.named?).eraseDups := by
  obtain ⟨-, hbuckets⟩ := partition_eq_ok h
  have hmap := congrArg (List.map GeoBucket.location) hbuckets
  rwa [map_location_addAll, map_fst_namings] at hmap

theorem nodup_locations {rest : List GeoBucket} (h : partition servers = .ok (⟨.defaultAnswer, servers⟩ :: rest)) :
    (.defaultAnswer :: rest.map GeoBucket.location).Nodup := by
  rw [locations_of_partition h]
  exact nodup_eraseDups _

theorem mem_locations {rest : List GeoBucket} (h : partition servers = .ok (⟨.defaultAnswer, servers⟩ :: rest))
    (location : GeoLocation) : location ∈ rest.map GeoBucket.location ↔
      location ≠ .defaultAnswer ∧ location.value ≠ "" ∧ location.key ∈ tagsOf servers := by
  have hcons : location ∈ GeoLocation.defaultAnswer :: rest.map GeoBucket.location ↔
      location = .defaultAnswer ∨ location ∈ (tagsOf servers).filterMap GeoLocation.named? := by
    rw [locations_of_partition h, List.mem_eraseDups, List.mem_cons]
  rw [← mem_named]
  constructor
  · intro hlocation
    have hother : location ≠ .defaultAnswer := fun hsame => (List.nodup_cons.mp (nodup_locations h)).1 (hsame ▸ hlocation)
    exact ⟨hother, (hcons.mp (List.mem_cons_of_mem _ hlocation)).resolve_left hother⟩
  · rintro ⟨hother, hnamed⟩
    exact (List.mem_cons.mp (hcons.mpr (Or.inr hnamed))).resolve_left hother

theorem namedBuckets_of_partition {rest : List GeoBucket}
    (h : partition servers = .ok (⟨.defaultAnswer, servers⟩ :: rest)) : NamedBuckets servers rest := by
  have hmem := mem_locations h
  refine ⟨(List.nodup_cons.mp (nodup_locations h)).2, hmem, ?_, ?_⟩
  · have horder := pairwise_idxOf_eraseDups (.defaultAnswer :: (tagsOf servers).filterMap GeoLocation.named?)
    rw [← locations_of_partition h] at horder
    have hrest := List.pairwise_map.mp (List.pairwise_cons.mp horder).2
    refine hrest.imp_of_mem fun {first second} hfirst hsecond hlt => ?_
    obtain ⟨hfirst, hvalue, -⟩ := (hmem first.location).mp (List.mem_map_of_mem hfirst)
    obtain ⟨hsecond, hvalue', -⟩ := (hmem second.location).mp (List.mem_map_of_mem hsecond)
    rw [List.idxOf_cons_ne _ hfirst.symm, List.idxOf_cons_ne _ hsecond.symm] at hlt
    exact idxOf_key_lt hvalue hvalue' (Nat.lt_of_succ_lt_succ hlt)
  · intro bucket hbucket
    obtain ⟨hother, hvalue, -⟩ := (hmem bucket.location).mp (List.mem_map_of_mem hbucket)
    have hfirst : serversOf bucket.location [⟨.defaultAnswer, servers⟩] = [] := by
      rw [serversOf_cons, if_neg hother.symm]
      rfl
    have hservers : serversOf bucket.location (⟨.defaultAnswer, servers⟩ :: rest) = bucket.servers :=
      serversOf_of_mem (nodup_locations h) (List.mem_cons_of_mem _ hbucket)
    rw [(partition_eq_ok h).2, serversOf_addAll_namings servers hfirst] at hservers
    rw [← hservers]
    congr 1
    refine List.filter_congr fun ref _ => ?_
    rw [decide_eq_decide, namedBy, mem_named]
    exact and_iff_right hvalue

/-- The partition is refused exactly for a tag that is malformed, and then for the first
one. Else the first bucket holds the servers as they were given, and the others are for
the other places that tags name. -/
theorem partition_by_first_tags (servers : List ServerRef) :
    ((∃ fault, partition servers = .error fault) ↔ ∃ tag ∈ tagsOf servers, MalformedTag tag) ∧
    (∀ fault, partition servers = .error fault →
      ∃ server tag, FirstMalformed servers server tag ∧ fault = .malformedGeoTag server tag) ∧
    (∀ buckets, partition servers = .ok buckets →
      ∃ rest, buckets = ⟨⟨.country, "*"⟩, servers⟩ :: rest ∧ NamedBuckets servers rest) := by
  have hmalformed : ∀ {fault}, partition servers = .error fault → ∃ tag ∈ tagsOf servers, MalformedTag tag := by
    intro fault hfault
    by_contra hnone
    rw [partition_of_wellFormed fun tag htag hbad => hnone ⟨tag, htag, hbad⟩] at hfault
    cases hfault
  refine ⟨⟨fun ⟨fault, hfault⟩ => hmalformed hfault, fun hbad => ?_⟩, ?_, ?_⟩
  · obtain ⟨server, tag, hfirst⟩ := exists_firstMalformed hbad
    exact ⟨_, partition_of_firstMalformed hfirst⟩
  · intro fault hfault
    obtain ⟨server, tag, hfirst⟩ := exists_firstMalformed (hmalformed hfault)
    rw [partition_of_firstMalformed hfirst] at hfault
    exact ⟨server, tag, hfirst, (Except.error.inj hfault).symm⟩
  · intro buckets hbuckets
    obtain ⟨rest, rfl, -⟩ := partition_eq_cons hbuckets
    exact ⟨rest, rfl, namedBuckets_of_partition hbuckets⟩

/-- A server that is listed twice, and another one that names its continent twice. -/
def listedTwice : List ServerRef :=
  let first : ServerRef := ⟨0, { name := "web03.luffy.cx", tags := ["web", "country:*", "continent:EU"] }⟩
  let second : ServerRef := ⟨1, { name := "web04.luffy.cx", tags := ["country:FR", "continent:EU", "continent:EU"] }⟩
  [first, second, first]

/-- The continent comes before the country, and each server is there once. -/
theorem partition_by_first_tags_twice :
    ∃ rest, partition listedTwice = .ok (⟨⟨.country, "*"⟩, listedTwice⟩ :: rest) ∧ NamedBuckets listedTwice rest ∧
      rest.map (fun bucket => (bucket.location, bucket.servers.map ServerRef.place)) =
        [(⟨.continent, "EU"⟩, [0, 1]), (⟨.country, "FR"⟩, [1])] := by
  have heval : (partition listedTwice).toOption.map (fun buckets => buckets.tail.map fun bucket =>
      (bucket.location, bucket.servers.map ServerRef.place)) =
      some [(⟨.continent, "EU"⟩, [0, 1]), (⟨.country, "FR"⟩, [1])] := by
    decide +kernel
  obtain ⟨-, -, hpartition⟩ := partition_by_first_tags listedTwice
  obtain ⟨buckets, hbuckets, heval⟩ := Step.exists_ok_of_toOption heval
  obtain ⟨rest, rfl, hrest⟩ := hpartition buckets hbuckets
  exact ⟨rest, hbuckets, hrest, heval⟩

end ZoneGraph.GeoBucket
