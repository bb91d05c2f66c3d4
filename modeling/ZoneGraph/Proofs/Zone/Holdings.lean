import ZoneGraph.Proofs.Zone.Changes

/-! What a zone holds. A resource that an operation leaves in a zone was there before or
is one that the operation adds. So whatever was done to a zone since it was opened, each
of its resources was added since resources were last taken, or it is the hosted zone that
it was opened with. -/
namespace ZoneGraph.Zone

variable {zone next opened : Zone} {resource : Resource} {operation : Operation}

/-! ### One operation -/

/-- Whether a zone holds what another one does and after it resources of some sort. -/
def Appends (P : Resource → Prop) (zone next : Zone) : Prop :=
  ∃ added, next.resources.toList = zone.resources.toList ++ added ∧ ∀ resource ∈ added, P resource

theorem appends_refl {P : Resource → Prop} (zone : Zone) : zone.Appends P zone := ⟨[], by simp, by simp⟩

theorem Gains.appends {P : Resource → Prop} (h : zone.Gains P next) : zone.Appends P next := by
  obtain ⟨added, set, key, rfl, hset, hadded⟩ := h
  exact ⟨added, hset, hadded⟩

/-- A look-up adds at most the data source. -/
theorem appends_nameservers {servers : Nameservers} (hrun : nameservers zone = .ok servers next)
    (hlooks : operation.LooksUp zone) : zone.Appends (operation.Adds zone) next := by
  obtain ⟨-, ⟨-, rfl⟩ | ⟨hneeds, fresh, rfl⟩⟩ := nameservers_eq_ok.mp hrun
  · exact appends_refl next
  · exact ⟨[zone.lookupResource], rfl, List.forall_mem_singleton.mpr (.lookup zone operation hneeds hlooks)⟩

theorem appends_register {registrar : Provider} {dnssec : Bool} (hrun : register registrar dnssec zone = .ok () next) :
    zone.Appends ((Operation.register registrar dnssec).Adds zone) next := by
  have haccepts : (Operation.register registrar dnssec).Registers zone := ⟨_, _, hrun⟩
  have hlooks : (Operation.register registrar dnssec).LooksUp zone := haccepts
  obtain ⟨key, between, set, hfor, hservers, rfl, hset⟩ := register_ok hrun
  obtain ⟨looked, hlooked, hadds⟩ := appends_nameservers hservers hlooks
  rw [hlooked, List.append_assoc] at hset
  refine ⟨_, hset, List.forall_mem_append.mpr ⟨hadds, List.forall_mem_cons.mpr ⟨?_, ?_⟩⟩⟩
  · exact .registeredNameservers zone registrar dnssec _ haccepts
  · intro resource hresource
    obtain ⟨found, rfl, rfl⟩ := Option.map_eq_some_iff.mp (Option.mem_toList.mp hresource)
    rcases keyFor_eq_ok.mp hfor with ⟨-, hnone⟩ | ⟨-, -, hkey⟩
    · cases hnone
    · exact .registeredKey zone registrar dnssec found haccepts hkey.symm

/-- An operation that does not take resources away adds some at the end. -/
theorem appends_next (h : zone.Consistent) (htake : operation ≠ .take) :
    zone.Appends (operation.Adds zone) (operation.next zone) := by
  cases operation with
  | call asked => exact (gains_perform asked zone).appends
  | sign handle => exact (gains_sign handle zone).appends
  | allowUser name => exact (gains_allowUser name zone).appends
  | register registrar dnssec =>
    change zone.Appends _ (Step.after (register registrar dnssec) zone)
    cases hrun : register registrar dnssec zone with
    | ok value next =>
      rw [Step.after_of_ok hrun]
      exact appends_register hrun
    | error fault next =>
      rw [Step.after_of_error hrun, eq_of_register_error h hrun]
      exact appends_refl zone
  | nameservers =>
    obtain ⟨set, hservers, -⟩ := nameservers_of_fresh h.lookup
    have hlooks : Operation.nameservers.LooksUp zone := ⟨_, _, hservers⟩
    have hnext : Operation.nameservers.next zone = _ := Step.after_of_ok (Step.bind_of_ok hservers)
    rw [hnext]
    exact appends_nameservers hservers hlooks
  | summary =>
    obtain ⟨set, hservers, -⟩ := nameservers_of_fresh h.lookup
    have hsummary := summary_eq_ok.mpr ⟨_, hservers, rfl⟩
    have hlooks : Operation.summary.LooksUp zone := ⟨_, _, hsummary⟩
    have hnext : Operation.summary.next zone = _ := Step.after_of_ok (Step.bind_of_ok hsummary)
    rw [hnext]
    exact appends_nameservers hservers hlooks
  | take => exact absurd rfl htake

theorem mem_resources_next (h : zone.Consistent) (operation : Operation)
    (hr : resource ∈ (operation.next zone).resources.toList) :
    (operation ≠ .take ∧ resource ∈ zone.resources.toList) ∨ operation.Adds zone resource := by
  by_cases htake : operation = .take
  · subst htake
    cases hr
  · obtain ⟨added, hnext, hadded⟩ := appends_next h htake
    rw [hnext] at hr
    exact (List.mem_append.mp hr).imp (And.intro htake) (hadded resource)

/-! ### Histories -/

/-- What a zone holds was added since resources were last taken, or was there from the
start and resources were never taken. -/
theorem mem_resources_run (h : opened.Consistent) {operations : List Operation}
    (hr : resource ∈ (opened.run operations).resources.toList) :
    (.take ∉ operations ∧ resource ∈ opened.resources.toList) ∨
      SinceTake (fun operation zone => operation.Adds zone resource) opened operations := by
  induction operations using List.reverseRecOn with
  | nil => exact Or.inl ⟨List.not_mem_nil, hr⟩
  | append_singleton operations operation ih =>
    rw [run_concat] at hr
    rw [sinceTake_concat, List.mem_append, List.mem_singleton, not_or]
    rcases mem_resources_next (consistent_run h operations) operation hr with ⟨htake, hbefore⟩ | hadds
    · rcases ih hbefore with ⟨hnever, hfirst⟩ | hsince
      · exact Or.inl ⟨⟨hnever, Ne.symm htake⟩, hfirst⟩
      · exact Or.inr (Or.inl ⟨htake, hsince⟩)
    · exact Or.inr (Or.inr hadds)

end ZoneGraph.Zone
