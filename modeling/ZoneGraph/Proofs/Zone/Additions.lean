import ZoneGraph.Proofs.Zone.Histories

/-! What operations add to a zone. Whether an operation goes through or breaks off on the
way, it leaves the zone with more resources at the end, and each of them is one that the
operation declares for this zone. Operations that look nameservers up are followed only
where nothing breaks off, and are left to the zones that were opened. -/
namespace ZoneGraph.Zone

variable {zone between next : Zone} {P : Resource → Prop} {resource : Resource}

/-! ### Gains -/

/-- Whether a zone is another one that has since declared resources of some sort. It may
have been signed, but it has not looked its nameservers up. -/
def Gains (P : Resource → Prop) (zone next : Zone) : Prop :=
  ∃ added set key, next = { zone with resources := set, key } ∧
    set.toList = zone.resources.toList ++ added ∧ ∀ resource ∈ added, P resource

theorem gains_refl (zone : Zone) : zone.Gains P zone :=
  ⟨[], zone.resources, zone.key, rfl, (List.append_nil _).symm, by simp⟩

theorem Gains.trans (h : zone.Gains P between) (h' : between.Gains P next) : zone.Gains P next := by
  obtain ⟨added, set, key, rfl, hset, hadded⟩ := h
  obtain ⟨more, set', key', rfl, hset', hmore⟩ := h'
  refine ⟨added ++ more, set', key', rfl, ?_, ?_⟩
  · rw [hset', hset, List.append_assoc]
  · exact List.forall_mem_append.mpr ⟨hadded, hmore⟩

/-- Two operations, one after the other, add what each of them does. -/
theorem gains_bind {α β : Type} {first : Step Zone α} {second : α → Step Zone β}
    (hfirst : zone.Gains P (Step.after first zone))
    (hsecond : ∀ middle between, first zone = .ok middle between →
      between.Gains P (Step.after (second middle) between)) :
    zone.Gains P (Step.after (first >>= second) zone) := by
  cases h : first zone with
  | ok middle between =>
    rw [Step.after_of_ok h] at hfirst
    rw [Step.after_bind_of_ok h]
    exact hfirst.trans (hsecond middle between h)
  | error fault between =>
    rw [Step.after_of_error h] at hfirst
    rwa [Step.after_of_error (Step.bind_of_error h)]

theorem gains_emit (h : P resource) : zone.Gains P (Step.after (emit resource) zone) := by
  cases hemit : emit resource zone with
  | ok value next =>
    obtain ⟨fresh, rfl⟩ := emit_eq_ok.mp hemit
    rw [Step.after_of_ok hemit]
    exact ⟨[resource], _, _, rfl, rfl, List.forall_mem_singleton.mpr h⟩
  | error fault next =>
    obtain ⟨-, -, rfl⟩ := emit_eq_error.mp hemit
    rw [Step.after_of_error hemit]
    exact gains_refl next

theorem gains_keepKey (key : SigningKey) (zone : Zone) : zone.Gains P (Step.after (keepKey key) zone) :=
  ⟨[], zone.resources, some key, rfl, (List.append_nil _).symm, by simp⟩

/-! ### Operations -/

/-- Whether an operation may declare a resource for a zone. -/
inductive Operation.Adds : Operation → Zone → Resource → Prop where
  | record (zone : Zone) (asked : Call) (record : Record) : Adds (.call asked) zone (zone.recordResource record)
  | livednsKey (zone : Zone) (handle : Option SigningKeyHandle) (h : zone.backend = .livedns) :
      Adds (.sign handle) zone zone.livednsKey
  | hostedZoneKey (zone : Zone) (handle : SigningKeyHandle) (h : zone.backend = .route53) :
      Adds (.sign (some handle)) zone (zone.hostedZoneKey handle)
  | hostedZoneSigning (zone : Zone) (handle : SigningKeyHandle) (h : zone.backend = .route53) :
      Adds (.sign (some handle)) zone (zone.hostedZoneSigning (zone.hostedZoneKey handle))
  | user (zone : Zone) (name : String) (h : zone.backend = .route53) : Adds (.allowUser name) zone (zone.user name)
  | userPolicy (zone : Zone) (name : String) (h : zone.backend = .route53) :
      Adds (.allowUser name) zone (zone.userPolicy name)
  | lookup (zone : Zone) (operation : Operation) (h : zone.needsLookup) (hlooks : operation.LooksUp zone) :
      Adds operation zone zone.lookupResource
  | registeredNameservers (zone : Zone) (registrar : Provider) (dnssec : Bool) (servers : Nameservers)
      (h : (Operation.register registrar dnssec).Registers zone) :
      Adds (.register registrar dnssec) zone (zone.registeredNameservers registrar servers)
  | registeredKey (zone : Zone) (registrar : Provider) (dnssec : Bool) (key : SigningKey)
      (h : (Operation.register registrar dnssec).Registers zone) (hkey : zone.key = some key) :
      Adds (.register registrar dnssec) zone (zone.registeredKey registrar key)

theorem gains_signLivedns {handle : Option SigningKeyHandle} (h : zone.backend = .livedns) :
    zone.Gains ((Operation.sign handle).Adds zone) (Step.after signLivedns zone) := by
  rw [signLivedns, Step.after_congr (Step.get_bind _ zone)]
  apply gains_bind
  · exact gains_emit (.livednsKey zone handle h)
  · intro _ between _
    exact gains_keepKey _ between

theorem gains_signRoute53 {handle : SigningKeyHandle} (h : zone.backend = .route53) :
    zone.Gains ((Operation.sign (some handle)).Adds zone) (Step.after (signRoute53 handle) zone) := by
  rw [signRoute53, Step.after_congr (Step.get_bind _ zone)]
  apply gains_bind
  · exact gains_emit (.hostedZoneKey zone handle h)
  · intro _ between _
    apply gains_bind
    · exact gains_emit (.hostedZoneSigning zone handle h)
    · intro _ between _
      exact gains_keepKey _ between

/-- Signing declares the key and the switch at most. It may break off between the two. -/
theorem gains_sign (handle : Option SigningKeyHandle) (zone : Zone) :
    zone.Gains ((Operation.sign handle).Adds zone) (Step.after (sign handle) zone) := by
  cases hkey : zone.key with
  | some key =>
    have hsign : sign handle zone = .ok () zone := by simp [sign, hkey]
    rw [Step.after_of_ok hsign]
    exact gains_refl zone
  | none =>
    cases hbackend : zone.backend with
    | livedns =>
      have hsign : sign handle zone = signLivedns zone := by simp [sign, hkey, hbackend]
      rw [Step.after_congr hsign]
      exact gains_signLivedns hbackend
    | route53 =>
      cases handle with
      | some handle =>
        have hsign : sign (some handle) zone = signRoute53 handle zone := by simp [sign, hkey, hbackend]
        rw [Step.after_congr hsign]
        exact gains_signRoute53 hbackend
      | none =>
        have hsign : sign none zone = .error (.deployment (.needsSigningKey zone.name)) zone := by
          simp [sign, hkey, hbackend]
        rw [Step.after_of_error hsign]
        exact gains_refl zone

theorem allowUser_of_livedns (name : String) (h : zone.backend = .livedns) :
    allowUser name zone = .error (.deployment (.needsHostedZone zone.name)) zone := by
  simp [allowUser, h]

theorem allowUser_of_route53 (name : String) (h : zone.backend = .route53) :
    allowUser name zone =
      (emit (zone.user name) >>= fun _ => emit (zone.userPolicy name) : Step Zone Unit) zone := by
  simp [allowUser, h]

/-- Letting a user in declares the user and the policy at most. -/
theorem gains_allowUser (name : String) (zone : Zone) :
    zone.Gains ((Operation.allowUser name).Adds zone) (Step.after (allowUser name) zone) := by
  cases hbackend : zone.backend with
  | livedns =>
    rw [Step.after_of_error (allowUser_of_livedns name hbackend)]
    exact gains_refl zone
  | route53 =>
    rw [Step.after_congr (allowUser_of_route53 name hbackend)]
    apply gains_bind
    · exact gains_emit (.user zone name hbackend)
    · intro _ between _
      exact gains_emit (.userPolicy zone name hbackend)

theorem gains_perform (asked : Call) (zone : Zone) :
    zone.Gains ((Operation.call asked).Adds zone) (Step.after asked.perform zone) := by
  obtain ⟨set, hafter, hset⟩ := after_perform asked zone
  rw [hafter]
  refine ⟨_, set, zone.key, rfl, hset, ?_⟩
  rw [List.forall_mem_map]
  exact fun record _ => .record zone asked record

end ZoneGraph.Zone
