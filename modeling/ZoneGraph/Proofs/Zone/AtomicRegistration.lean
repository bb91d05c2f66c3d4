import ZoneGraph.Proofs.Zone.Changes

/-! Registration is all or nothing. Whatever was done to a zone since it was opened, a
registration is refused for a missing key, for the wrong plugin or for an earlier
registration, checked in this order, and then it changes nothing; else it goes through,
and what it declares depends only on whether the nameservers were looked up before. -/
namespace ZoneGraph.Zone

variable {backend : Backend} {origin : Origin} {provider : Provider} {opened : Zone}

theorem register_all_or_nothing (hopen : Zone.open backend origin provider = .ok opened)
    (operations : List Operation) (registrar : Provider) (dnssec : Bool) :
    let zone := opened.run operations
    let unsigned := dnssec = true ∧ zone.key = none
    (unsigned → register registrar dnssec zone = .error (.notSigned origin.name) zone) ∧
    (¬ unsigned → registrar.kind ≠ .gandi →
      register registrar dnssec zone = .error (.providerMismatch .gandi registrar.reference) zone) ∧
    (¬ unsigned → registrar.kind = .gandi → SinceTake Operation.Registers opened operations →
      register registrar dnssec zone =
        .error (.duplicateResource (backend.pathStart ++ "-" ++ origin.name ++ "/NS")) zone) ∧
    (¬ unsigned → registrar.kind = .gandi → ¬ SinceTake Operation.Registers opened operations →
      ∃ lookup keys set,
        register registrar dnssec zone = .ok () { zone with resources := set, lookup := zone.knownLookup } ∧
        set.toList = zone.resources.toList ++ lookup ++
          zone.registeredNameservers registrar (.reference zone.nameserversRef) :: keys ∧
        (backend = .livedns ∧ ¬ Ever Operation.LooksUp opened operations → lookup = [zone.lookupResource]) ∧
        (¬ (backend = .livedns ∧ ¬ Ever Operation.LooksUp opened operations) → lookup = []) ∧
        (dnssec = false → keys = []) ∧
        (dnssec = true → ∃ key, zone.key = some key ∧ keys = [zone.registeredKey registrar key])) := by
  intro zone unsigned
  have hconsistent : zone.Consistent := consistent_run (consistent_open hopen) operations
  have hregistered : zone.pathOf "NS" ∈ zone.resources.paths ↔ _ := registered_run hopen operations
  have hneeds : zone.needsLookup ↔ _ := needsLookup_run hopen operations
  obtain ⟨hbackend, horigin, -⟩ := open_eq_ok hopen
  obtain ⟨hbackend', horigin'⟩ := same_run (consistent_open hopen) operations
  have hname : zone.name = origin.name := by rw [name, horigin', horigin]
  have hpath : zone.pathOf "NS" = backend.pathStart ++ "-" ++ origin.name ++ "/NS" := by
    rw [pathOf, path, hname, hbackend', hbackend, String.append_assoc]
    rfl
  have hkey : ¬ unsigned → dnssec = true → zone.key ≠ none := fun hsigned hdnssec hnone => hsigned ⟨hdnssec, hnone⟩
  refine ⟨?_, ?_, ?_, ?_⟩
  · rintro ⟨hdnssec, hnone⟩
    rw [← hname]
    exact register_of_unsigned hdnssec hnone
  · intro hsigned hkind
    exact register_of_mismatch (hkey hsigned) hkind
  · intro hsigned hkind hsince
    rw [← hpath]
    exact register_of_registered hconsistent (hkey hsigned) hkind (hregistered.mpr hsince)
  · intro hsigned hkind hsince
    obtain ⟨key, set, hfor, hrun, hset⟩ :=
      register_of_free hconsistent (hkey hsigned) hkind (mt hregistered.mp hsince)
    refine ⟨_, _, set, hrun, hset, ?_, ?_, ?_, ?_⟩
    · rw [← hneeds]
      exact fun hneeded => if_pos hneeded
    · rw [← hneeds]
      exact fun hknown => if_neg hknown
    · rintro rfl
      rcases keyFor_eq_ok.mp hfor with ⟨-, rfl⟩ | ⟨⟨⟩, -⟩
      rfl
    · rintro rfl
      rcases keyFor_eq_ok.mp hfor with ⟨⟨⟩, -⟩ | ⟨-, hsome, hsame⟩
      obtain ⟨key, rfl⟩ := Option.isSome_iff_exists.mp hsome
      exact ⟨key, hsame.symm, rfl⟩

/-- Registered a second time, a zone is refused and stays as it is. -/
theorem register_all_or_nothing_twice :
    ∃ opened, Zone.open .livedns ⟨"luffy.cx", { acmeRoot := "luffy.cx" }⟩ ⟨.gandi, "vb", []⟩ = .ok opened ∧
      Step.Accepts (register ⟨.gandi, "vb", []⟩ false) opened ∧
      register ⟨.gandi, "vb", []⟩ false (opened.run [.register ⟨.gandi, "vb", []⟩ false]) =
        .error (.duplicateResource "G-luffy.cx/NS") (opened.run [.register ⟨.gandi, "vb", []⟩ false]) := by
  obtain ⟨opened, hopen⟩ : ∃ opened,
      Zone.open .livedns ⟨"luffy.cx", { acmeRoot := "luffy.cx" }⟩ ⟨.gandi, "vb", []⟩ = .ok opened :=
    exists_open (by decide +kernel) rfl
  obtain ⟨-, -, -, hfirst⟩ := register_all_or_nothing hopen [] ⟨.gandi, "vb", []⟩ false
  obtain ⟨lookup, keys, set, hrun, -⟩ := hfirst nofun rfl not_sinceTake_nil
  have haccepted : Step.Accepts (register ⟨.gandi, "vb", []⟩ false) opened := ⟨_, _, hrun⟩
  have hsince : SinceTake Operation.Registers opened [.register ⟨.gandi, "vb", []⟩ false] :=
    ⟨[], _, [], rfl, List.not_mem_nil, haccepted⟩
  obtain ⟨-, -, hsecond, -⟩ :=
    register_all_or_nothing hopen [.register ⟨.gandi, "vb", []⟩ false] ⟨.gandi, "vb", []⟩ false
  exact ⟨opened, hopen, haccepted, hsecond nofun rfl hsince⟩

end ZoneGraph.Zone
