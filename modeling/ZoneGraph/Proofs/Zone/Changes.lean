import ZoneGraph.Proofs.Zone.Consistency

/-! What operations change. On a consistent zone an operation declares records and the
like, or it looks nameservers up and registers whole or not at all, or it takes the
resources away. A zone that was opened is consistent after any operations, so its paths
tell its history: the path of a record is taken when such a record was declared since
resources were last taken, and that of the registered nameservers when it was registered
since then. The look-up outlasts the taking. -/
namespace ZoneGraph.Zone

variable {zone next opened : Zone} {operation : Operation} {operations : List Operation}

/-! ### Changes -/

/-- What an operation leaves of a consistent zone. -/
inductive Change (zone : Zone) (operation : Operation) : Zone → Prop where
  /-- Records, keys and users are declared. -/
  | declares (ids : List String) (next : Zone) (hgrows : zone.Grows ids next)
      (hrecords : ∀ record : Record, record.path ∈ ids ↔ operation.Declares record zone)
      (hlookup : "LiveDNSNS" ∉ ids) (hkey : "NSSEC" ∉ ids) (hregistered : "NS" ∉ ids)
      (hlooks : ¬ operation.LooksUp zone) (hregisters : ¬ operation.Registers zone)
      (htake : operation ≠ .take) : Change zone operation next
  /-- The nameservers are looked up and maybe registered, with or without the key. -/
  | looksUp (ids : List String) (set : ResourceSet)
      (hset : set.paths = zone.resources.paths ++ zone.pendingLookup.map Resource.path ++ ids.map zone.pathOf)
      (hids : ids ⊆ ["NS", "NSSEC"]) (hkey : "NSSEC" ∈ ids → "NS" ∈ ids)
      (hrecords : operation.declared zone = []) (hlooks : operation.LooksUp zone)
      (hregisters : operation.Registers zone ↔ "NS" ∈ ids) :
      Change zone operation { zone with resources := set, lookup := zone.knownLookup }
  /-- The resources are taken. -/
  | takes (htake : operation = .take) : Change zone operation { zone with resources := .empty }

theorem Operation.LooksUp.ne_take (h : operation.LooksUp zone) : operation ≠ .take := by
  rintro rfl
  exact h

/-- A path other than that of the look-up is taken after an operation that looks up if it
was taken before it, or by what is registered. -/
theorem mem_paths_looksUp {set : ResourceSet} {ids : List String} {id : String}
    (hset : set.paths = zone.resources.paths ++ zone.pendingLookup.map Resource.path ++ ids.map zone.pathOf)
    (hid : id ≠ "LiveDNSNS") : zone.pathOf id ∈ set.paths ↔ zone.pathOf id ∈ zone.resources.paths ∨ id ∈ ids := by
  have hmap : zone.pathOf id ∈ ids.map zone.pathOf ↔ id ∈ ids := List.mem_map_of_injective fun _ _ => pathOf_inj.mp
  rw [hset, List.mem_append, List.mem_append, hmap, or_iff_left (pathOf_notMem_pendingLookup hid)]

namespace Change

theorem same (h : zone.Change operation next) : next.backend = zone.backend ∧ next.origin = zone.origin := by
  cases h with
  | declares ids next hgrows =>
    obtain ⟨set, key, rfl, -⟩ := hgrows
    exact ⟨rfl, rfl⟩
  | looksUp => exact ⟨rfl, rfl⟩
  | takes => exact ⟨rfl, rfl⟩

theorem provider (h : zone.Change operation next) : next.provider = zone.provider := by
  cases h with
  | declares ids next hgrows =>
    obtain ⟨set, key, rfl, -⟩ := hgrows
    rfl
  | looksUp => rfl
  | takes => rfl

/-- Only taking removes a resource. -/
theorem paths_subset (h : zone.Change operation next) (htake : operation ≠ .take) :
    zone.resources.paths ⊆ next.resources.paths := by
  cases h with
  | declares ids next hgrows =>
    obtain ⟨set, key, rfl, hset⟩ := hgrows
    change _ ⊆ set.paths
    rw [hset]
    exact List.subset_append_left _ _
  | looksUp ids set hset =>
    change _ ⊆ set.paths
    rw [hset, List.append_assoc]
    exact List.subset_append_left _ _
  | takes h => exact absurd h htake

theorem pathOf_eq (h : zone.Change operation next) (id : String) : next.pathOf id = zone.pathOf id := by
  obtain ⟨hbackend, horigin⟩ := h.same
  rw [pathOf, path, name, hbackend, horigin]
  rfl

theorem consistent (h : zone.Consistent) (hchange : zone.Change operation next) : next.Consistent := by
  cases hchange with
  | declares ids next hgrows _ hlookup hkey hregistered => exact h.grows hgrows hlookup hkey hregistered
  | looksUp ids set hset hids hkey =>
    refine ⟨fun hneeds => absurd hneeds not_needsLookup_of_known, fun _ => not_needsLookup_of_known, ?_⟩
    change zone.pathOf "NSSEC" ∈ set.paths → zone.pathOf "NS" ∈ set.paths
    rw [mem_paths_looksUp hset (by decide), mem_paths_looksUp hset (by decide)]
    exact Or.imp h.key hkey
  | takes =>
    have hempty : ∀ path : String, path ∉ ResourceSet.empty.paths := fun path => List.not_mem_nil
    exact ⟨fun _ => hempty _, fun hmem => absurd hmem (hempty _), fun hmem => absurd hmem (hempty _)⟩

/-- The look-up is due until an operation makes it. -/
theorem needsLookup_iff (hchange : zone.Change operation next) :
    next.needsLookup ↔ zone.needsLookup ∧ ¬ operation.LooksUp zone := by
  cases hchange with
  | declares ids next hgrows _ _ _ _ hlooks =>
    obtain ⟨set, key, rfl, -⟩ := hgrows
    exact (and_iff_left hlooks).symm
  | looksUp ids set hset hids hkey hrecords hlooks =>
    exact iff_of_false not_needsLookup_of_known fun hneeds => hneeds.2 hlooks
  | takes htake =>
    subst htake
    exact (and_iff_left id).symm

theorem registered_iff (hchange : zone.Change operation next) :
    next.pathOf "NS" ∈ next.resources.paths ↔
      (operation ≠ .take ∧ zone.pathOf "NS" ∈ zone.resources.paths) ∨ operation.Registers zone := by
  cases hchange with
  | declares ids next hgrows _ _ _ hregistered _ hregisters htake =>
    simp [hgrows.mem_paths, hregistered, hregisters, htake]
  | looksUp ids set hset hids hkey hrecords hlooks hregisters =>
    rw [hregisters, and_iff_right hlooks.ne_take]
    exact mem_paths_looksUp hset (by decide)
  | takes htake =>
    subst htake
    simp [ResourceSet.paths, Operation.Registers]

theorem path_mem_iff (hchange : zone.Change operation next) (record : Record) :
    next.pathOf record.path ∈ next.resources.paths ↔
      (operation ≠ .take ∧ zone.pathOf record.path ∈ zone.resources.paths) ∨ operation.Declares record zone := by
  cases hchange with
  | declares ids next hgrows hrecords _ _ _ _ _ htake => simp [hgrows.mem_paths, hrecords, htake]
  | looksUp ids set hset hids hkey hrecords hlooks hregisters =>
    have hother : record.path ∉ ids := by
      intro hmem
      rcases List.mem_pair.mp (hids hmem) with hpath | hpath
      · exact Record.path_ne_of_hyphen_notMem (by decide) hpath
      · exact Record.path_ne_of_hyphen_notMem (by decide) hpath
    have hnone : ¬ operation.Declares record zone := by simp [Operation.Declares, hrecords]
    rw [and_iff_right hlooks.ne_take, or_iff_left hnone]
    refine (mem_paths_looksUp hset (Record.path_ne_of_hyphen_notMem (by decide))).trans (or_iff_left hother)
  | takes htake =>
    subst htake
    simp [ResourceSet.paths, Operation.Declares, Operation.declared]

end Change

/-- An operation that neither registers nor looks up nor takes declares at most what it
says, and no more than that is left when it breaks off. -/
theorem change_of_growsWithin {ids : List String} (hgrows : zone.GrowsWithin ids next)
    (hids : ∀ record : Record, record.path ∉ ids) (hlookup : "LiveDNSNS" ∉ ids) (hkey : "NSSEC" ∉ ids)
    (hregistered : "NS" ∉ ids) (hrecords : operation.declared zone = []) (hlooks : ¬ operation.LooksUp zone)
    (hregisters : ¬ operation.Registers zone) (htake : operation ≠ .take) : zone.Change operation next := by
  obtain ⟨found, hfound, hgrows⟩ := hgrows
  refine .declares found next hgrows ?_ (mt (@hfound _) hlookup) (mt (@hfound _) hkey) (mt (@hfound _) hregistered)
    hlooks hregisters htake
  intro record
  simp [Operation.Declares, hrecords, mt (@hfound _) (hids record)]

theorem change_of_nameservers (h : zone.Consistent)
    (hrun : ∀ servers next, nameservers zone = .ok servers next → operation.next zone = next ∧ operation.LooksUp zone)
    (hrecords : operation.declared zone = []) (hregisters : ¬ operation.Registers zone) :
    zone.Change operation (operation.next zone) := by
  obtain ⟨set, hservers, hset⟩ := nameservers_of_fresh h.lookup
  obtain ⟨hnext, hlooks⟩ := hrun _ _ hservers
  rw [hnext]
  refine .looksUp [] set ?_ (List.nil_subset _) (by simp) hrecords hlooks (by simp [hregisters])
  rw [ResourceSet.paths, hset, List.map_append, ResourceSet.paths, List.map_nil, List.append_nil]

theorem change_of_register_error {registrar : Provider} {dnssec : Bool} {fault : Fault}
    (h : register registrar dnssec zone = .error fault zone) :
    zone.Change (.register registrar dnssec) (Step.after (register registrar dnssec) zone) := by
  have hrefused : ¬ Step.Accepts (register registrar dnssec) zone := Step.not_accepts_of_error h
  rw [Step.after_of_error h]
  have hsame : zone.GrowsWithin [] zone := growsWithin_refl zone
  exact change_of_growsWithin hsame (by simp) (by simp) (by simp) (by simp) rfl hrefused hrefused nofun

theorem change_of_register (h : zone.Consistent) (registrar : Provider) (dnssec : Bool) :
    zone.Change (.register registrar dnssec) (Step.after (register registrar dnssec) zone) := by
  by_cases hkey : dnssec = true ∧ zone.key = none
  · exact change_of_register_error (register_of_unsigned hkey.1 hkey.2)
  have hkey : dnssec = true → zone.key ≠ none := fun hdnssec hnone => hkey ⟨hdnssec, hnone⟩
  by_cases hkind : registrar.kind = .gandi
  · by_cases taken : zone.pathOf "NS" ∈ zone.resources.paths
    · exact change_of_register_error (register_of_registered h hkey hkind taken)
    · obtain ⟨key, set, -, hrun, hset⟩ := register_of_free h hkey hkind taken
      have haccepted : Step.Accepts (register registrar dnssec) zone := ⟨_, _, hrun⟩
      rw [Step.after_of_ok hrun]
      refine .looksUp ("NS" :: (key.map fun _ => "NSSEC").toList) set ?_ ?_ (by simp) rfl haccepted
        (iff_of_true haccepted (by simp))
      · rw [ResourceSet.paths, hset, List.map_append, List.map_append]
        cases key <;> rfl
      · cases key <;> simp
  · exact change_of_register_error (register_of_mismatch hkey hkind)

theorem change_next (h : zone.Consistent) (operation : Operation) : zone.Change operation (operation.next zone) := by
  cases operation with
  | call asked =>
    have hnotMem : ∀ {id : String}, '-' ∉ id.toList → id ∉ ((Operation.call asked).declared zone).map Record.path := by
      intro id hid hmem
      obtain ⟨record, -, hpath⟩ := List.mem_map.mp hmem
      exact Record.path_ne_of_hyphen_notMem hid hpath
    exact .declares _ _ (grows_perform asked zone) (fun record => List.mem_map) (hnotMem (by decide))
      (hnotMem (by decide)) (hnotMem (by decide)) id id nofun
  | sign handle =>
    have hrecords : ∀ record : Record, record.path ∉ ["KSK", "DNSSEC"] := by
      intro record hmem
      rcases List.mem_pair.mp hmem with hpath | hpath
      · exact Record.path_ne_of_hyphen_notMem (by decide) hpath
      · exact Record.path_ne_of_hyphen_notMem (by decide) hpath
    exact change_of_growsWithin (growsWithin_sign handle zone) hrecords (by decide) (by decide) (by decide) rfl id id
      nofun
  | allowUser name =>
    have hrecords : ∀ record : Record, record.path ∉ ["IAM-" ++ name, "IAM-" ++ name ++ "-policy"] := by
      intro record hmem
      rcases List.mem_pair.mp hmem with hpath | hpath
      · exact Record.path_ne_user name hpath
      · exact Record.path_ne_user (name ++ "-policy") (hpath.trans (String.append_assoc ..))
    have hother : ∀ {id : String}, '-' ∉ id.toList → id ∉ ["IAM-" ++ name, "IAM-" ++ name ++ "-policy"] := by
      intro id hid hmem
      rcases List.mem_pair.mp hmem with rfl | rfl <;> simp [String.toList_append] at hid
    exact change_of_growsWithin (growsWithin_allowUser name zone) hrecords (hother (by decide)) (hother (by decide))
      (hother (by decide)) rfl id id nofun
  | register registrar dnssec => exact change_of_register h registrar dnssec
  | nameservers =>
    refine change_of_nameservers h ?_ rfl id
    intro servers next hservers
    exact ⟨Step.after_of_ok (Step.bind_of_ok hservers), _, _, hservers⟩
  | summary =>
    refine change_of_nameservers h ?_ rfl id
    intro servers next hservers
    have hsummary := summary_eq_ok.mpr ⟨servers, hservers, rfl⟩
    exact ⟨Step.after_of_ok (Step.bind_of_ok hsummary), _, _, hsummary⟩
  | take => exact .takes rfl

/-! ### Histories -/

/-- A zone that was opened has taken the path of its hosted zone at most. -/
theorem notMem_paths_open {backend : Backend} {origin : Origin} {provider : Provider}
    (h : Zone.open backend origin provider = .ok opened) {id : String} (hid : id ≠ "zone") :
    opened.pathOf id ∉ opened.resources.paths := by
  obtain ⟨-, -, -, -, -, hresources⟩ := open_eq_ok h
  rw [ResourceSet.paths, hresources]
  split
  · rw [List.map_singleton, List.mem_singleton]
    exact mt pathOf_inj.mp hid
  · exact List.not_mem_nil

theorem consistent_open {backend : Backend} {origin : Origin} {provider : Provider}
    (h : Zone.open backend origin provider = .ok opened) : opened.Consistent := by
  constructor
  · exact fun _ => notMem_paths_open h (by decide)
  · exact fun hmem => absurd hmem (notMem_paths_open h (by decide))
  · exact fun hmem => absurd hmem (notMem_paths_open h (by decide))

theorem consistent_run (h : opened.Consistent) (operations : List Operation) : (opened.run operations).Consistent := by
  induction operations using List.reverseRecOn with
  | nil => exact h
  | append_singleton operations operation ih =>
    rw [run_concat]
    exact (change_next ih operation).consistent ih

theorem same_run (h : opened.Consistent) (operations : List Operation) :
    (opened.run operations).backend = opened.backend ∧ (opened.run operations).origin = opened.origin := by
  induction operations using List.reverseRecOn with
  | nil => exact ⟨rfl, rfl⟩
  | append_singleton operations operation ih =>
    obtain ⟨hbackend, horigin⟩ := (change_next (consistent_run h operations) operation).same
    rw [run_concat, hbackend, horigin]
    exact ih

theorem provider_run (h : opened.Consistent) (operations : List Operation) :
    (opened.run operations).provider = opened.provider := by
  induction operations using List.reverseRecOn with
  | nil => rfl
  | append_singleton operations operation ih =>
    rw [run_concat, (change_next (consistent_run h operations) operation).provider]
    exact ih

section Opened
variable {backend : Backend} {origin : Origin} {provider : Provider}
  (h : Zone.open backend origin provider = .ok opened) (operations : List Operation)

include h

theorem backend_run : (opened.run operations).backend = backend :=
  (same_run (consistent_open h) operations).1.trans (open_eq_ok h).1

theorem origin_run : (opened.run operations).origin = origin :=
  (same_run (consistent_open h) operations).2.trans (open_eq_ok h).2.1

theorem pathOf_run (id : String) :
    (opened.run operations).pathOf id = backend.pathStart ++ "-" ++ origin.name ++ "/" ++ id := by
  rw [pathOf, path, name, backend_run h operations, origin_run h operations]

end Opened

/-- A path that is free at first and that operations of one sort take is taken when there
was such an operation since resources were last taken. -/
theorem mem_paths_run {P : Operation → Zone → Prop} {id : String} (h : opened.Consistent)
    (hfree : opened.pathOf id ∉ opened.resources.paths)
    (hstep : ∀ (zone : Zone) (operation : Operation), zone.Consistent →
      ((operation.next zone).pathOf id ∈ (operation.next zone).resources.paths ↔
        (operation ≠ .take ∧ zone.pathOf id ∈ zone.resources.paths) ∨ P operation zone))
    (operations : List Operation) :
    (opened.run operations).pathOf id ∈ (opened.run operations).resources.paths ↔ SinceTake P opened operations := by
  induction operations using List.reverseRecOn with
  | nil => exact iff_of_false hfree not_sinceTake_nil
  | append_singleton operations operation ih =>
    rw [run_concat, hstep _ operation (consistent_run h operations), ih, sinceTake_concat]

theorem registered_run {backend : Backend} {origin : Origin} {provider : Provider}
    (h : Zone.open backend origin provider = .ok opened) (operations : List Operation) :
    (opened.run operations).pathOf "NS" ∈ (opened.run operations).resources.paths ↔
      SinceTake Operation.Registers opened operations :=
  mem_paths_run (consistent_open h) (notMem_paths_open h (by decide))
    (fun _ operation h => (change_next h operation).registered_iff) operations

theorem declared_run {backend : Backend} {origin : Origin} {provider : Provider}
    (h : Zone.open backend origin provider = .ok opened) (record : Record) (operations : List Operation) :
    (opened.run operations).pathOf record.path ∈ (opened.run operations).resources.paths ↔
      SinceTake (Operation.Declares record) opened operations :=
  mem_paths_run (consistent_open h) (notMem_paths_open h (Record.path_ne_of_hyphen_notMem (by decide)))
    (fun _ operation h => (change_next h operation).path_mem_iff record) operations

/-- The look-up is due until some operation makes it, also after resources were taken. -/
theorem needsLookup_run {backend : Backend} {origin : Origin} {provider : Provider}
    (h : Zone.open backend origin provider = .ok opened) (operations : List Operation) :
    (opened.run operations).needsLookup ↔ backend = .livedns ∧ ¬ Ever Operation.LooksUp opened operations := by
  induction operations using List.reverseRecOn with
  | nil =>
    obtain ⟨hbackend, -, -, hlookup, -⟩ := open_eq_ok h
    rw [run_nil, needsLookup, hbackend]
    simp [hlookup, not_ever_nil]
  | append_singleton operations operation ih =>
    rw [run_concat, (change_next (consistent_run (consistent_open h) operations) operation).needsLookup_iff, ih,
      ever_concat, not_or, and_assoc]

end ZoneGraph.Zone
