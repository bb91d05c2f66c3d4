import ZoneGraph.Proofs.Zone.Consistency

/-! Every resource has a provider of its plugin. A zone declares its own resources with its
own provider, which is of the plugin for its backend, and a registration is declared with
the registrar's provider, which is checked to be of the registrar's plugin. -/
namespace ZoneGraph

/-- Whether a provider manages a resource: it is the one that the resource names, and it
is of the plugin for the kind. -/
structure Resource.ManagedBy (provider : Provider) (resource : Resource) : Prop where
  reference : resource.provider = provider.reference
  kind : provider.kind = resource.kind.providerKind

namespace Zone

/-- Whether the provider of a zone and those of its resources are among some. -/
structure Managed (known : Provider → Prop) (zone : Zone) : Prop where
  provider : known zone.provider
  resources : ∀ resource ∈ zone.resources.toList, ∃ provider, known provider ∧ resource.ManagedBy provider

variable {known : Provider → Prop} {zone next : Zone}

theorem Managed.declare {set : ResourceSet} {added : List Resource} (h : zone.Managed known)
    (hadded : ∀ resource ∈ added, ∃ provider, known provider ∧ resource.ManagedBy provider)
    (hset : set.toList = zone.resources.toList ++ added) : Managed known { zone with resources := set } := by
  refine ⟨h.provider, fun resource hresource => ?_⟩
  change resource ∈ set.toList at hresource
  rw [hset] at hresource
  rcases List.mem_append.mp hresource with hold | hnew
  · exact h.resources resource hold
  · exact hadded resource hnew

/-- A resource of a kind that the zone's backend has is managed by the zone's provider. -/
theorem managedBy_own {resource : Resource} (hprovider : resource.provider = zone.provider.reference)
    (hkind : resource.kind.providerKind = zone.backend.providerKind) : resource.ManagedBy zone.provider :=
  ⟨hprovider, zone.managed.trans hkind.symm⟩

theorem Managed.own (h : zone.Managed known) {resource : Resource}
    (hprovider : resource.provider = zone.provider.reference)
    (hkind : resource.kind.providerKind = zone.backend.providerKind) :
    ∃ provider, known provider ∧ resource.ManagedBy provider :=
  ⟨zone.provider, h.provider, managedBy_own hprovider hkind⟩

theorem managed_open {backend : Backend} {origin : Origin} {provider : Provider} (hprovider : known provider)
    (h : Zone.open backend origin provider = .ok zone) : zone.Managed known := by
  obtain ⟨hbackend, -, hsame, -, -, hresources⟩ := open_eq_ok h
  rw [← hsame] at hprovider
  refine ⟨hprovider, ?_⟩
  rw [hresources]
  split
  · rename_i hroute53
    intro resource hresource
    obtain rfl := List.mem_singleton.mp hresource
    refine ⟨zone.provider, hprovider, rfl, zone.managed.trans ?_⟩
    rw [hbackend, hroute53]
    rfl
  · simp

theorem managedBy_recordResource (record : Record) (zone : Zone) :
    (zone.recordResource record).ManagedBy zone.provider := by
  cases hbackend : zone.backend with
  | livedns =>
    rw [recordResource_of_livedns hbackend]
    exact managedBy_own rfl (by rw [hbackend]; rfl)
  | route53 =>
    rw [recordResource_of_route53 hbackend, route53Record]
    apply managedBy_own
    · rw [provider_addRouting]
      rfl
    · rw [kind_addRouting, hbackend]
      rfl

theorem managed_recordResource (h : zone.Managed known) (record : Record) :
    ∃ provider, known provider ∧ (zone.recordResource record).ManagedBy provider :=
  ⟨zone.provider, h.provider, managedBy_recordResource record zone⟩

theorem managed_perform (call : Call) :
    Step.Respects (fun zone next => zone.Managed known → next.Managed known) (call.perform : Step Zone Unit) := by
  rintro zone ⟨⟩ next hrun h
  obtain ⟨records, -, hdeclare⟩ := Call.perform_eq_ok.mp hrun
  obtain ⟨-, set, rfl, hset⟩ := each_declare_ok hdeclare
  refine h.declare ?_ hset
  rw [List.forall_mem_map]
  exact fun record _ => managed_recordResource h record

theorem managed_nameservers :
    Step.Respects (fun zone next => zone.Managed known → next.Managed known) nameservers := by
  intro zone servers next hrun h
  obtain ⟨-, ⟨-, rfl⟩ | ⟨⟨hbackend, -⟩, fresh, rfl⟩⟩ := nameservers_eq_ok.mp hrun
  · exact h
  · have hlookup : ∃ provider, known provider ∧ zone.lookupResource.ManagedBy provider :=
      h.own rfl (by rw [hbackend]; rfl)
    have hset := ResourceSet.toList_append zone.resources _ fresh
    have hdeclared := h.declare (List.forall_mem_singleton.mpr hlookup) hset
    exact ⟨hdeclared.provider, hdeclared.resources⟩

theorem managed_sign (handle : Option SigningKeyHandle) :
    Step.Respects (fun zone next => zone.Managed known → next.Managed known) (sign handle) := by
  rintro zone ⟨⟩ next hrun h
  obtain ⟨-, rfl⟩ | ⟨added, key, set, hsigns, -, rfl, hset⟩ := sign_ok hrun
  · exact h
  · have hadded : ∀ resource ∈ added, ∃ provider, known provider ∧ resource.ManagedBy provider := by
      cases hsigns with
      | livedns handle hbackend => exact List.forall_mem_singleton.mpr (h.own rfl (by rw [hbackend]; rfl))
      | route53 handle hbackend =>
        refine List.forall_mem_cons.mpr ⟨h.own rfl ?_, List.forall_mem_singleton.mpr (h.own rfl ?_)⟩
        · rw [hbackend]
          rfl
        · rw [hbackend]
          rfl
    have hdeclared := h.declare hadded hset
    exact ⟨hdeclared.provider, hdeclared.resources⟩

theorem managed_allowUser (name : String) :
    Step.Respects (fun zone next => zone.Managed known → next.Managed known) (allowUser name) := by
  rintro zone ⟨⟩ next hrun h
  obtain ⟨hbackend, set, rfl, hset⟩ := allowUser_ok hrun
  refine h.declare (List.forall_mem_cons.mpr ⟨h.own rfl ?_, List.forall_mem_singleton.mpr (h.own rfl ?_)⟩) hset
  · rw [hbackend]
    rfl
  · rw [hbackend]
    rfl

/-- Only a provider of the registrar's plugin registers a zone. -/
theorem kind_of_register {registrar : Provider} {dnssec : Bool} (h : register registrar dnssec zone = .ok () next) :
    registrar.kind = .gandi := by
  by_contra hkind
  by_cases hkey : dnssec = true ∧ zone.key = none
  · rw [register_of_unsigned hkey.1 hkey.2] at h
    cases h
  · rw [register_of_mismatch (fun hdnssec hnone => hkey ⟨hdnssec, hnone⟩) hkind] at h
    cases h

theorem managed_register {registrar : Provider} (hregistrar : known registrar) (dnssec : Bool) :
    Step.Respects (fun zone next => zone.Managed known → next.Managed known) (register registrar dnssec) := by
  rintro zone ⟨⟩ next hrun h
  have hkind := kind_of_register hrun
  obtain ⟨key, between, set, -, hservers, rfl, hset⟩ := register_ok hrun
  refine (managed_nameservers _ _ _ hservers h).declare (List.forall_mem_cons.mpr ⟨?_, ?_⟩) hset
  · exact ⟨registrar, hregistrar, rfl, hkind⟩
  · intro resource hresource
    cases key with
    | none => cases hresource
    | some key =>
      obtain rfl := List.mem_singleton.mp hresource
      exact ⟨registrar, hregistrar, rfl, hkind⟩

end Zone

end ZoneGraph
