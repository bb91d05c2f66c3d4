import ZoneGraph.Proofs.Zone.Holdings

/-! Asking a LiveDNS zone for its nameservers. It is asked directly, in a summary and by a
registration that passes its checks. The first time it declares the look-up, and it keeps
the reference, so the look-up is due until someone asks and the reference never changes.
What is registered comes after the look-up, and other operations add records and the key
only. -/
namespace ZoneGraph.Zone

variable {zone next opened : Zone} {operation : Operation} {added : List Resource} {origin : Origin}
  {provider : Provider}

/-! ### One operation -/

/-- Whether an operation gets as far as asking for the nameservers of the zone. -/
def Operation.AsksNameservers : Operation → Zone → Prop
  | .nameservers, _ | .summary, _ => True
  | .register registrar dnssec, zone => registrar.kind = .gandi ∧ (dnssec = true → zone.key ≠ none)
  | _, _ => False

/-- What an operation that is no taking adds to a LiveDNS zone. -/
inductive Operation.Yields (operation : Operation) (zone : Zone) : List Resource → Prop where
  /-- Records and the key are added without asking for the nameservers. -/
  | silent (added : List Resource) (hasks : ¬ operation.AsksNameservers zone)
      (hadded : ∀ resource ∈ added, resource = zone.livednsKey ∨
        ∃ record ∈ operation.declared zone, resource = zone.recordResource record) :
      Yields operation zone added
  /-- The look-up is added if it is still to be made, and after it a registration. -/
  | asks (added : List Resource) (hasks : operation.AsksNameservers zone)
      (hadded : ∀ resource ∈ added, ∃ registrar,
        resource = zone.registeredNameservers registrar (.reference zone.nameserversRef) ∨
          ∃ key, resource = zone.registeredKey registrar key) :
      Yields operation zone (zone.pendingLookup ++ added)

/-- An operation that is refused before it declares anything adds nothing. -/
theorem toList_refused {fault : Fault} (hrun : operation.step zone = .error fault zone) :
    (operation.next zone).resources.toList = zone.resources.toList ++ [] := by
  rw [Operation.next, Step.after_of_error hrun, List.append_nil]

/-- A registration that does not get as far is refused at once. -/
theorem register_of_not_asks {registrar : Provider} {dnssec : Bool}
    (hasks : ¬ (Operation.register registrar dnssec).AsksNameservers zone) :
    ∃ fault, register registrar dnssec zone = .error fault zone := by
  by_cases hunsigned : dnssec = true ∧ zone.key = none
  · exact ⟨_, register_of_unsigned hunsigned.1 hunsigned.2⟩
  · have hkey : dnssec = true → zone.key ≠ none := fun hdnssec hnone => hunsigned ⟨hdnssec, hnone⟩
    exact ⟨_, register_of_mismatch hkey fun hkind => hasks ⟨hkind, hkey⟩⟩

section Livedns

variable (h : zone.Consistent) (hbackend : zone.backend = .livedns)

include h

/-- A registration that asks for the nameservers declares itself whole, or it is there
already. -/
theorem yields_register (registrar : Provider) (dnssec : Bool) :
    ∃ added, ((Operation.register registrar dnssec).next zone).resources.toList = zone.resources.toList ++ added ∧
      (Operation.register registrar dnssec).Yields zone added := by
  by_cases hasks : (Operation.register registrar dnssec).AsksNameservers zone
  · obtain ⟨hkind, hkey⟩ := hasks
    by_cases taken : zone.pathOf "NS" ∈ zone.resources.paths
    · refine ⟨zone.pendingLookup ++ [], ?_, .asks [] ⟨hkind, hkey⟩ nofun⟩
      rw [pendingLookup, if_neg (h.registered taken)]
      exact toList_refused (register_of_registered h hkey hkind taken)
    · obtain ⟨key, set, -, hrun, hset⟩ := register_of_free h hkey hkind taken
      have hnext : (Operation.register registrar dnssec).next zone = _ := Step.after_of_ok hrun
      rw [List.append_assoc] at hset
      rw [hnext]
      refine ⟨_, hset, .asks _ ⟨hkind, hkey⟩ fun resource hr => ⟨registrar, ?_⟩⟩
      rcases List.mem_cons.mp hr with rfl | hr
      · exact .inl rfl
      · obtain ⟨found, -, rfl⟩ := Option.map_eq_some_iff.mp (Option.mem_toList.mp hr)
        exact .inr ⟨found, rfl⟩
  · obtain ⟨fault, hrun⟩ := register_of_not_asks hasks
    exact ⟨[], toList_refused hrun, .silent [] hasks nofun⟩

include hbackend

theorem yields_next (htake : operation ≠ .take) :
    ∃ added, (operation.next zone).resources.toList = zone.resources.toList ++ added ∧ operation.Yields zone added := by
  obtain ⟨set, hservers, hset⟩ := nameservers_of_fresh h.lookup
  rw [← List.append_nil zone.pendingLookup] at hset
  cases operation with
  | call asked =>
    obtain ⟨set, hnext, hset⟩ := after_perform asked zone
    change (Operation.call asked).next zone = _ at hnext
    rw [hnext]
    refine ⟨_, hset, .silent _ (fun hasks => hasks) fun resource hr => ?_⟩
    obtain ⟨record, hrecord, rfl⟩ := List.mem_map.mp hr
    exact .inr ⟨record, hrecord, rfl⟩
  | sign handle =>
    obtain ⟨added, set, key, hnext, hset, hadded⟩ := gains_sign handle zone
    change (Operation.sign handle).next zone = _ at hnext
    rw [hnext]
    refine ⟨added, hset, .silent _ (fun hasks => hasks) fun resource hr => ?_⟩
    cases hadded resource hr with
    | livednsKey => exact .inl rfl
    | hostedZoneKey _ _ hroute53 | hostedZoneSigning _ _ hroute53 =>
      rw [hbackend] at hroute53
      cases hroute53
    | lookup _ _ _ hlooks => exact hlooks.elim
  | allowUser name =>
    exact ⟨[], toList_refused (allowUser_of_livedns name hbackend), .silent [] (fun hasks => hasks) nofun⟩
  | register registrar dnssec => exact yields_register h registrar dnssec
  | nameservers =>
    have hnext : Operation.nameservers.next zone = _ := Step.after_of_ok (Step.bind_of_ok hservers)
    rw [hnext]
    exact ⟨_, hset, .asks [] trivial nofun⟩
  | summary =>
    have hsummary := summary_eq_ok.mpr ⟨_, hservers, rfl⟩
    have hnext : Operation.summary.next zone = _ := Step.after_of_ok (Step.bind_of_ok hsummary)
    rw [hnext]
    exact ⟨_, hset, .asks [] trivial nofun⟩
  | take => exact absurd rfl htake

end Livedns

/-! ### What stays the same -/

/-- A zone keeps the reference to its nameservers, looked up or not. -/
theorem nameserversRef_next (h : zone.Consistent) (hbackend : zone.backend = .livedns) (operation : Operation) :
    (operation.next zone).nameserversRef = zone.nameserversRef := by
  have hchange := change_next h operation
  generalize operation.next zone = next at hchange ⊢
  cases hchange with
  | declares ids next hgrows =>
    obtain ⟨set, key, rfl, -⟩ := hgrows
    rfl
  | looksUp ids set =>
    have hlookup : zone.knownLookup = some zone.nameserversRef := if_pos hbackend
    have hknown := @known_of_lookup { zone with resources := set, lookup := zone.knownLookup } _ hbackend hlookup
    exact hknown.2
  | takes => rfl

/-- What a zone declares for its nameservers and for a record is told by what it is named
after and by its provider. -/
theorem lookupResource_congr (hbackend : next.backend = zone.backend) (horigin : next.origin = zone.origin)
    (hprovider : next.provider = zone.provider) : next.lookupResource = zone.lookupResource := by
  simp [lookupResource, resource, pathOf, path, name, hbackend, horigin, hprovider]

theorem recordResource_congr (hbackend : next.backend = zone.backend) (horigin : next.origin = zone.origin)
    (hprovider : next.provider = zone.provider) (record : Record) :
    next.recordResource record = zone.recordResource record := by
  obtain ⟨backend, origin, provider, resources, lookup, key, managed⟩ := zone
  obtain ⟨backend', origin', provider', resources', lookup', key', managed'⟩ := next
  cases hbackend
  cases horigin
  cases hprovider
  rfl

/-! ### Who asks -/

/-- Where the look-up is still to be made, an operation that asks for the nameservers gets
to know them, and no other does. -/
theorem asksNameservers_iff (h : zone.Consistent) (hneeds : zone.needsLookup) (operation : Operation) :
    operation.AsksNameservers zone ↔ operation.LooksUp zone := by
  obtain ⟨set, hservers, -⟩ := nameservers_of_fresh h.lookup
  cases operation with
  | register registrar dnssec =>
    constructor
    · rintro ⟨hkind, hkey⟩
      obtain ⟨key, set, -, hrun, -⟩ := register_of_free h hkey hkind fun taken => h.registered taken hneeds
      exact ⟨_, _, hrun⟩
    · rintro ⟨⟨⟩, next, hrun⟩
      by_contra hasks
      obtain ⟨fault, hrefused⟩ := register_of_not_asks hasks
      rw [hrefused] at hrun
      cases hrun
  | nameservers => exact iff_of_true trivial ⟨_, _, hservers⟩
  | summary => exact iff_of_true trivial ⟨_, _, summary_eq_ok.mpr ⟨_, hservers, rfl⟩⟩
  | call | sign | allowUser | take => exact Iff.rfl

section Opened

variable (hopen : Zone.open .livedns origin provider = .ok opened)

include hopen

/-- The look-up is due until the zone is asked for its nameservers. -/
theorem needsLookup_run_iff (operations : List Operation) :
    (opened.run operations).needsLookup ↔ ¬ Ever Operation.AsksNameservers opened operations := by
  induction operations using List.reverseRecOn with
  | nil =>
    obtain ⟨hbackend, -, -, hlookup, -⟩ := open_eq_ok hopen
    exact iff_of_true ⟨hbackend, hlookup⟩ not_ever_nil
  | append_singleton operations operation ih =>
    have hconsistent := consistent_run (consistent_open hopen) operations
    rw [run_concat, (change_next hconsistent operation).needsLookup_iff, ever_concat, not_or, ← ih]
    exact and_congr_right fun hneeds => not_congr (asksNameservers_iff hconsistent hneeds operation).symm

theorem nameserversRef_run (operations : List Operation) :
    (opened.run operations).nameserversRef = opened.lookupResource.reference "nameservers" := by
  induction operations using List.reverseRecOn with
  | nil =>
    obtain ⟨hbackend, -, -, hlookup, -⟩ := open_eq_ok hopen
    rw [run_nil, nameserversRef_of_livedns hbackend, hlookup, Option.getD_none]
  | append_singleton operations operation ih =>
    have hconsistent := consistent_run (consistent_open hopen) operations
    rw [run_concat, nameserversRef_next hconsistent (backend_run hopen operations), ih]

theorem same_as_opened (operations : List Operation) :
    (opened.run operations).backend = opened.backend ∧ (opened.run operations).origin = opened.origin ∧
      (opened.run operations).provider = opened.provider := by
  obtain ⟨hbackend, horigin⟩ := same_run (consistent_open hopen) operations
  exact ⟨hbackend, horigin, provider_run (consistent_open hopen) operations⟩

end Opened

end ZoneGraph.Zone
