import ZoneGraph.Proofs.Zone.Additions

/-! What every zone that was opened keeps to. A look-up that is still to be made finds its
path free, a zone that is registered has looked its nameservers up, and the key is at the
registrar only together with the nameservers. So a registration that passes its checks
either finds its first path taken or goes through, and a zone is never left half
registered. -/
namespace ZoneGraph.Zone

variable {zone next : Zone} {ids : List String} {id : String}

/-! ### Growth -/

/-- Whether a zone is another one that has since declared resources at some paths. It may
have been signed, but it has not looked its nameservers up. -/
def Grows (ids : List String) (zone next : Zone) : Prop :=
  ∃ set key, next = { zone with resources := set, key } ∧ set.paths = zone.resources.paths ++ ids.map zone.pathOf

theorem grows_nil (zone : Zone) : zone.Grows [] zone := ⟨zone.resources, zone.key, rfl, by simp⟩

theorem Grows.mem_paths (h : zone.Grows ids next) :
    next.pathOf id ∈ next.resources.paths ↔ zone.pathOf id ∈ zone.resources.paths ∨ id ∈ ids := by
  obtain ⟨set, key, rfl, hset⟩ := h
  have hmap : zone.pathOf id ∈ ids.map zone.pathOf ↔ id ∈ ids :=
    List.mem_map_of_injective fun _ _ => pathOf_inj.mp
  change zone.pathOf id ∈ set.paths ↔ _
  rw [hset, List.mem_append, hmap]

/-- Whether a zone has since declared resources at no other paths than some. -/
def GrowsWithin (allowed : List String) (zone next : Zone) : Prop := ∃ ids ⊆ allowed, zone.Grows ids next

variable {allowed : List String}

theorem growsWithin_refl (zone : Zone) : zone.GrowsWithin allowed zone := ⟨[], by simp, grows_nil zone⟩

theorem Gains.growsWithin {P : Resource → Prop} (h : zone.Gains P next)
    (hpath : ∀ resource, P resource → ∃ id ∈ allowed, resource.path = zone.pathOf id) :
    zone.GrowsWithin allowed next := by
  obtain ⟨added, set, key, rfl, hset, hadded⟩ := h
  have hids : ∃ ids ⊆ allowed, added.map Resource.path = ids.map zone.pathOf := by
    clear hset
    induction added with
    | nil => exact ⟨[], List.nil_subset _, rfl⟩
    | cons resource rest ih =>
      obtain ⟨hfirst, hrest⟩ := List.forall_mem_cons.mp hadded
      obtain ⟨id, hid, hsame⟩ := hpath resource hfirst
      obtain ⟨ids, hids, hmap⟩ := ih hrest
      exact ⟨id :: ids, List.cons_subset.mpr ⟨hid, hids⟩, by rw [List.map_cons, List.map_cons, hsame, hmap]⟩
  obtain ⟨ids, hids, hmap⟩ := hids
  refine ⟨ids, hids, set, key, rfl, ?_⟩
  rw [ResourceSet.paths, hset, List.map_append, hmap]
  rfl

theorem growsWithin_sign (handle : Option SigningKeyHandle) (zone : Zone) :
    zone.GrowsWithin ["KSK", "DNSSEC"] (Step.after (sign handle) zone) := by
  refine (gains_sign handle zone).growsWithin fun resource hadds => ?_
  cases hadds with
  | livednsKey => exact ⟨"KSK", by simp, rfl⟩
  | hostedZoneKey => exact ⟨"KSK", by simp, rfl⟩
  | hostedZoneSigning => exact ⟨"DNSSEC", by simp, rfl⟩
  | lookup _ _ _ hlooks => exact hlooks.elim

theorem growsWithin_allowUser (name : String) (zone : Zone) :
    zone.GrowsWithin ["IAM-" ++ name, "IAM-" ++ name ++ "-policy"] (Step.after (allowUser name) zone) := by
  refine (gains_allowUser name zone).growsWithin fun resource hadds => ?_
  cases hadds with
  | user => exact ⟨"IAM-" ++ name, by simp, rfl⟩
  | userPolicy => exact ⟨"IAM-" ++ name ++ "-policy", by simp, rfl⟩
  | lookup _ _ _ hlooks => exact hlooks.elim

theorem grows_perform (asked : Call) (zone : Zone) :
    zone.Grows (((Operation.call asked).declared zone).map Record.path) (Step.after asked.perform zone) := by
  obtain ⟨set, hafter, hset⟩ := after_perform asked zone
  rw [hafter]
  refine ⟨set, zone.key, rfl, ?_⟩
  rw [ResourceSet.paths, hset, List.map_append, List.map_map, List.map_map]
  congr 1
  exact List.map_congr_left fun record _ => path_recordResource record zone

/-! ### Looking nameservers up -/

instance : Decidable zone.needsLookup := inferInstanceAs (Decidable (_ ∧ _))

/-- The resource that a zone declares when it is next asked for its nameservers, if any. -/
def pendingLookup (zone : Zone) : List Resource := if zone.needsLookup then [zone.lookupResource] else []

theorem pathOf_notMem_pendingLookup (hid : id ≠ "LiveDNSNS") :
    zone.pathOf id ∉ zone.pendingLookup.map Resource.path := by
  unfold pendingLookup
  split
  · rw [List.map_singleton, List.mem_singleton]
    exact mt pathOf_inj.mp hid
  · exact List.not_mem_nil

/-- The look-up of a zone that was asked for its nameservers. -/
def knownLookup (zone : Zone) : Option AttrRef :=
  if zone.backend = .livedns then some zone.nameserversRef else zone.lookup

theorem nameservers_of_fresh (fresh : zone.needsLookup → zone.pathOf "LiveDNSNS" ∉ zone.resources.paths) :
    ∃ set, nameservers zone = .ok (.reference zone.nameserversRef)
        { zone with resources := set, lookup := zone.knownLookup } ∧
      set.toList = zone.resources.toList ++ zone.pendingLookup := by
  by_cases hneeds : zone.needsLookup
  · refine ⟨zone.resources.append zone.lookupResource (fresh hneeds), ?_, ?_⟩
    · rw [knownLookup, if_pos hneeds.1]
      exact nameservers_eq_ok.mpr ⟨rfl, Or.inr ⟨hneeds, _, rfl⟩⟩
    · rw [pendingLookup, if_pos hneeds]
      rfl
  · have hsame : zone.knownLookup = zone.lookup := by
      unfold knownLookup
      split
      · rename_i hbackend
        cases hlookup : zone.lookup with
        | none => exact absurd ⟨hbackend, hlookup⟩ hneeds
        | some ref => rw [nameserversRef_of_livedns hbackend, hlookup, Option.getD_some]
      · rfl
    refine ⟨zone.resources, ?_, ?_⟩
    · rw [hsame]
      exact nameservers_eq_ok.mpr ⟨rfl, Or.inl ⟨hneeds, rfl⟩⟩
    · rw [pendingLookup, if_neg hneeds, List.append_nil]

/-- A zone that was asked for its nameservers does not look them up again. -/
theorem not_needsLookup_of_known {set : ResourceSet} :
    ¬ needsLookup { zone with resources := set, lookup := zone.knownLookup } := by
  rintro ⟨hbackend, hlookup⟩
  change zone.knownLookup = none at hlookup
  rw [knownLookup, if_pos hbackend] at hlookup
  cases hlookup

/-! ### The invariant -/

/-- Whether a zone has looked up and registered as one: the look-up is still free when it
is needed, what is registered was looked up, and a key is registered only with the
nameservers. -/
structure Consistent (zone : Zone) : Prop where
  lookup : zone.needsLookup → zone.pathOf "LiveDNSNS" ∉ zone.resources.paths
  registered : zone.pathOf "NS" ∈ zone.resources.paths → ¬ zone.needsLookup
  key : zone.pathOf "NSSEC" ∈ zone.resources.paths → zone.pathOf "NS" ∈ zone.resources.paths

/-- A zone that declares something else stays consistent. -/
theorem Consistent.grows (h : zone.Consistent) (hgrows : zone.Grows ids next) (hlookup : "LiveDNSNS" ∉ ids)
    (hkey : "NSSEC" ∉ ids) (hregistered : "NS" ∉ ids) : next.Consistent := by
  have hneeds : next.needsLookup ↔ zone.needsLookup := by
    obtain ⟨set, key, rfl, -⟩ := hgrows
    rfl
  constructor
  · rw [hneeds, hgrows.mem_paths, not_or]
    exact fun hneeded => ⟨h.lookup hneeded, hlookup⟩
  · rw [hneeds, hgrows.mem_paths]
    exact fun hmem => h.registered (hmem.resolve_right hregistered)
  · rw [hgrows.mem_paths, hgrows.mem_paths]
    exact fun hmem => Or.inl (h.key (hmem.resolve_right hkey))

/-! ### Registering -/

section Register

variable {registrar : Provider} {dnssec : Bool}

theorem register_of_unsigned (hdnssec : dnssec = true) (hkey : zone.key = none) :
    register registrar dnssec zone = .error (.notSigned zone.name) zone := by
  have hfor : zone.keyFor dnssec = .error (.notSigned zone.name) := by simp [keyFor, hdnssec, hkey]
  rw [register, Step.get_bind, hfor]
  rfl

theorem exists_keyFor (h : dnssec = true → zone.key ≠ none) : ∃ key, zone.keyFor dnssec = .ok key := by
  unfold keyFor
  cases dnssec with
  | false => exact ⟨none, rfl⟩
  | true =>
    obtain ⟨key, hkey⟩ := Option.ne_none_iff_exists'.mp (h rfl)
    exact ⟨some key, by rw [hkey]⟩

theorem register_of_mismatch (hkey : dnssec = true → zone.key ≠ none) (hkind : registrar.kind ≠ .gandi) :
    register registrar dnssec zone = .error (.providerMismatch .gandi registrar.reference) zone := by
  obtain ⟨key, hfor⟩ := exists_keyFor hkey
  have hexpect : registrar.expect .gandi = .error (.providerMismatch .gandi registrar.reference) := by
    simp [Provider.expect, hkind]
  rw [register, Step.get_bind, hfor, hexpect]
  rfl

theorem register_of_checked {key : Option SigningKey} : zone.keyFor dnssec = .ok key → registrar.kind = .gandi →
    register registrar dnssec zone = (nameservers >>= fun servers =>
      emit (zone.registeredNameservers registrar servers) >>= fun _ =>
        match key with
        | some key => emit (zone.registeredKey registrar key)
        | none => pure () : Step Zone Unit) zone := by
  intro hfor hkind
  have hexpect : registrar.expect .gandi = .ok () := by simp [Provider.expect, hkind]
  rw [register, Step.get_bind, hfor, hexpect]
  rfl

theorem register_of_registered (h : zone.Consistent) (hkey : dnssec = true → zone.key ≠ none)
    (hkind : registrar.kind = .gandi) (taken : zone.pathOf "NS" ∈ zone.resources.paths) :
    register registrar dnssec zone = .error (.duplicateResource (zone.pathOf "NS")) zone := by
  obtain ⟨key, hfor⟩ := exists_keyFor hkey
  have hservers := nameservers_eq_ok.mpr ⟨rfl, Or.inl ⟨h.registered taken, rfl⟩⟩
  rw [register_of_checked hfor hkind, Step.bind_of_ok hservers]
  exact Step.bind_of_error (emit_eq_error.mpr ⟨taken, rfl, rfl⟩)

/-- A consistent zone that is not registered can be, whole and at once. -/
theorem register_of_free (h : zone.Consistent) (hkey : dnssec = true → zone.key ≠ none)
    (hkind : registrar.kind = .gandi) (free : zone.pathOf "NS" ∉ zone.resources.paths) :
    ∃ key set, zone.keyFor dnssec = .ok key ∧
      register registrar dnssec zone = .ok () { zone with resources := set, lookup := zone.knownLookup } ∧
      set.toList = zone.resources.toList ++ zone.pendingLookup ++
        zone.registeredNameservers registrar (.reference zone.nameserversRef) ::
          (key.map (zone.registeredKey registrar ·)).toList := by
  obtain ⟨key, hfor⟩ := exists_keyFor hkey
  obtain ⟨looked, hservers, hlooked⟩ := nameservers_of_fresh h.lookup
  have hpaths : looked.paths = zone.resources.paths ++ zone.pendingLookup.map Resource.path := by
    rw [ResourceSet.paths, hlooked, List.map_append, ResourceSet.paths]
  have hfresh : (zone.registeredNameservers registrar (.reference zone.nameserversRef)).path ∉ looked.paths := by
    rw [hpaths, List.mem_append, not_or]
    exact ⟨free, pathOf_notMem_pendingLookup (by decide)⟩
  rw [register_of_checked hfor hkind, Step.bind_of_ok hservers, Step.bind_of_ok (emit_eq_ok.mpr ⟨hfresh, rfl⟩)]
  cases key with
  | none =>
    refine ⟨none, _, hfor, rfl, ?_⟩
    rw [ResourceSet.toList_append, hlooked]
    rfl
  | some key =>
    have hfresh' : (zone.registeredKey registrar key).path ∉ (looked.append _ hfresh).paths := by
      change _ ∉ (looked.toList ++ [_]).map Resource.path
      rw [List.map_append, ← ResourceSet.paths, hpaths, List.mem_append, List.mem_append, not_or, not_or]
      refine ⟨⟨mt h.key free, pathOf_notMem_pendingLookup (by decide)⟩, ?_⟩
      rw [List.map_singleton, List.mem_singleton]
      exact mt pathOf_inj.mp (by decide)
    refine ⟨some key, _, hfor, emit_eq_ok.mpr ⟨hfresh', rfl⟩, ?_⟩
    rw [ResourceSet.toList_append, ResourceSet.toList_append, hlooked]
    simp

theorem eq_of_register_error {fault : Fault} (h : zone.Consistent)
    (hrun : register registrar dnssec zone = .error fault next) : next = zone := by
  have hsame : ∀ {found : Fault}, register registrar dnssec zone = .error found zone → next = zone := by
    intro found hfound
    rw [hfound] at hrun
    cases hrun
    rfl
  by_cases hunsigned : dnssec = true ∧ zone.key = none
  · exact hsame (register_of_unsigned hunsigned.1 hunsigned.2)
  have hkey : dnssec = true → zone.key ≠ none := fun hdnssec hnone => hunsigned ⟨hdnssec, hnone⟩
  by_cases hkind : registrar.kind = .gandi
  · by_cases taken : zone.pathOf "NS" ∈ zone.resources.paths
    · exact hsame (register_of_registered h hkey hkind taken)
    · obtain ⟨key, set, -, hok, -⟩ := register_of_free h hkey hkind taken
      rw [hok] at hrun
      cases hrun
  · exact hsame (register_of_mismatch hkey hkind)

end Register

end ZoneGraph.Zone
