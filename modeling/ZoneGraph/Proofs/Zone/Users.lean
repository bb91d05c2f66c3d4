import ZoneGraph.Proofs.Zone.Holdings
import ZoneGraph.Proofs.Zone.References

/-! Which users exclude each other on Route53. A user lies at a path of its own name and
its policy at one with "-policy" behind it, so the policy of one user lies where the user
of another name does. Letting a user in is refused when one of its two paths was taken
since resources were last taken away: the user was declared before, or its name and that
of another user differ by "-policy". If only the policy finds its path taken, the user is
left without it. Between other names users are independent and granted as a whole. -/
namespace ZoneGraph.Zone

variable {zone next opened : Zone} {origin : Origin} {provider : Provider} {name other : String}
  {operations : List Operation}

/-! ### Paths -/

/-- What a user lies at in its zone. -/
def userId (name : String) : String := "IAM-" ++ name

/-- Whether the policy of one user lies where the other user does. -/
def PolicyClash (name other : String) : Prop := name = other ++ "-policy" ∨ other = name ++ "-policy"

instance : Decidable (PolicyClash name other) := inferInstanceAs (Decidable (_ ∨ _))

theorem userId_inj : userId name = userId other ↔ name = other := String.append_right_inj _

theorem userPath_inj : zone.pathOf (userId name) = zone.pathOf (userId other) ↔ name = other :=
  pathOf_inj.trans userId_inj

theorem path_user (name : String) (zone : Zone) : (zone.user name).path = zone.pathOf (userId name) := rfl

/-- The policy of a user lies where the user of a longer name would. -/
theorem path_userPolicy (name : String) (zone : Zone) :
    (zone.userPolicy name).path = zone.pathOf (userId (name ++ "-policy")) := by
  rw [userId, ← String.append_assoc]
  rfl

theorem ne_append_policy (name : String) : name ≠ name ++ "-policy" := by
  intro h
  have hlength := congrArg String.length h
  rw [String.length_append] at hlength
  have hsuffix : "-policy".length = 7 := rfl
  omega

/-- Nothing that is declared otherwise lies where a user does. -/
theorem Operation.Adds.path_ne_userPath {operation : Operation} {resource : Resource} (h : operation.Adds zone resource)
    (hoperation : ∀ other, operation ≠ .allowUser other) (name : String) :
    resource.path ≠ zone.pathOf (userId name) := by
  have hother : ∀ {id : String}, '-' ∉ id.toList → zone.pathOf id ≠ zone.pathOf (userId name) := by
    intro id hid hpath
    rw [pathOf_inj.mp hpath] at hid
    simp [userId, String.toList_append] at hid
  cases h with
  | record _ _ record =>
    rw [path_recordResource]
    exact mt pathOf_inj.mp (record.path_ne_user name)
  | livednsKey => exact hother (by decide)
  | hostedZoneKey => exact hother (by decide)
  | hostedZoneSigning => exact hother (by decide)
  | user => exact absurd rfl (hoperation _)
  | userPolicy => exact absurd rfl (hoperation _)
  | lookup => exact hother (by decide)
  | registeredNameservers => exact hother (by decide)
  | registeredKey => exact hother (by decide)

/-! ### Granting -/

section Grant
variable (hbackend : zone.backend = .route53)

include hbackend

theorem allowUser_of_free (huser : zone.pathOf (userId name) ∉ zone.resources.paths)
    (hpolicy : zone.pathOf (userId (name ++ "-policy")) ∉ zone.resources.paths) :
    ∃ set, allowUser name zone = .ok () { zone with resources := set } ∧
      set.toList = zone.resources.toList ++ [zone.user name, zone.userPolicy name] := by
  rw [← path_user] at huser
  have hfresh : (zone.userPolicy name).path ∉ (zone.resources.append (zone.user name) huser).paths := by
    rw [ResourceSet.paths_append, List.mem_append, List.mem_singleton, path_userPolicy, path_user, userPath_inj,
      not_or]
    exact ⟨hpolicy, (ne_append_policy name).symm⟩
  refine ⟨(zone.resources.append (zone.user name) huser).append (zone.userPolicy name) hfresh, ?_, ?_⟩
  · rw [allowUser_of_route53 name hbackend, Step.bind_of_ok (emit_eq_ok.mpr ⟨huser, rfl⟩)]
    exact emit_eq_ok.mpr ⟨hfresh, rfl⟩
  · rw [ResourceSet.toList_append, ResourceSet.toList_append, List.append_assoc]
    rfl

theorem allowUser_of_user (huser : zone.pathOf (userId name) ∈ zone.resources.paths) :
    allowUser name zone = .error (.duplicateResource (zone.pathOf (userId name))) zone := by
  rw [allowUser_of_route53 name hbackend]
  exact Step.bind_of_error (emit_eq_error.mpr ⟨huser, rfl, rfl⟩)

/-- A user whose policy finds its path taken is declared and then refused. -/
theorem allowUser_of_policy (huser : zone.pathOf (userId name) ∉ zone.resources.paths)
    (hpolicy : zone.pathOf (userId (name ++ "-policy")) ∈ zone.resources.paths) :
    ∃ set, allowUser name zone =
        .error (.duplicateResource (zone.pathOf (userId (name ++ "-policy")))) { zone with resources := set } ∧
      set.toList = zone.resources.toList ++ [zone.user name] := by
  rw [← path_user] at huser
  refine ⟨zone.resources.append (zone.user name) huser, ?_, rfl⟩
  rw [allowUser_of_route53 name hbackend, Step.bind_of_ok (emit_eq_ok.mpr ⟨huser, rfl⟩)]
  refine emit_eq_error.mpr ⟨?_, by rw [path_userPolicy], rfl⟩
  rw [ResourceSet.paths_append, path_userPolicy]
  exact List.mem_append_left _ hpolicy

theorem accepts_allowUser : Step.Accepts (allowUser name) zone ↔
    zone.pathOf (userId name) ∉ zone.resources.paths ∧
      zone.pathOf (userId (name ++ "-policy")) ∉ zone.resources.paths := by
  by_cases huser : zone.pathOf (userId name) ∈ zone.resources.paths
  · exact iff_of_false (Step.not_accepts_of_error (allowUser_of_user hbackend huser)) fun h => h.1 huser
  · by_cases hpolicy : zone.pathOf (userId (name ++ "-policy")) ∈ zone.resources.paths
    · obtain ⟨set, hrun, -⟩ := allowUser_of_policy hbackend huser hpolicy
      exact iff_of_false (Step.not_accepts_of_error hrun) fun h => h.2 hpolicy
    · obtain ⟨set, hrun, -⟩ := allowUser_of_free hbackend huser hpolicy
      exact iff_of_true ⟨_, _, hrun⟩ ⟨huser, hpolicy⟩

/-- A user that is declared takes both paths, if the policy finds its own taken or not. -/
theorem userPath_mem_allowUser (huser : zone.pathOf (userId other) ∉ zone.resources.paths) :
    zone.pathOf (userId name) ∈ (Step.after (allowUser other) zone).resources.paths ↔
      zone.pathOf (userId name) ∈ zone.resources.paths ∨ name = other ∨ name = other ++ "-policy" := by
  by_cases hpolicy : zone.pathOf (userId (other ++ "-policy")) ∈ zone.resources.paths
  · obtain ⟨set, hrun, hset⟩ := allowUser_of_policy hbackend huser hpolicy
    have hheld : name = other ++ "-policy" → zone.pathOf (userId name) ∈ zone.resources.paths := by
      rintro rfl
      exact hpolicy
    rw [Step.after_of_error hrun, ResourceSet.paths_of_toList hset, List.mem_append, List.map_singleton,
      List.mem_singleton, path_user, userPath_inj]
    exact ⟨Or.imp_right Or.inl, fun h => h.elim Or.inl fun h => h.elim Or.inr (Or.inl ∘ hheld)⟩
  · obtain ⟨set, hrun, hset⟩ := allowUser_of_free hbackend huser hpolicy
    rw [Step.after_of_ok hrun, ResourceSet.paths_of_toList hset, List.mem_append, List.map_cons, List.map_singleton,
      List.mem_pair, path_user, path_userPolicy, userPath_inj, userPath_inj]

omit hbackend in
theorem backend_after_allowUser (name : String) (zone : Zone) :
    (Step.after (allowUser name) zone).backend = zone.backend := by
  obtain ⟨added, set, key, hsame, -⟩ := gains_allowUser name zone
  rw [hsame]

omit hbackend in
theorem pathOf_after_allowUser (name id : String) (zone : Zone) :
    (Step.after (allowUser name) zone).pathOf id = zone.pathOf id := by
  obtain ⟨added, set, key, hsame, -⟩ := gains_allowUser name zone
  rw [hsame]
  rfl

/-- After a user was granted, another one is granted if it was before and shares no path. -/
theorem accepts_allowUser_after (h : Step.Accepts (allowUser other) zone) :
    Step.Accepts (allowUser name) (Step.after (allowUser other) zone) ↔
      (other ≠ name ∧ ¬ PolicyClash other name) ∧ Step.Accepts (allowUser name) zone := by
  have huser := ((accepts_allowUser hbackend).mp h).1
  have hpolicy := ((accepts_allowUser hbackend).mp h).2
  have hinj : name ++ "-policy" = other ++ "-policy" ↔ name = other := String.append_left_inj _
  rw [accepts_allowUser ((backend_after_allowUser other zone).trans hbackend), accepts_allowUser hbackend,
    pathOf_after_allowUser, pathOf_after_allowUser, userPath_mem_allowUser hbackend huser,
    userPath_mem_allowUser hbackend huser, hinj, PolicyClash]
  grind

/-- Users are granted one after the other when each could be granted by itself and no two
of them share a path. -/
theorem accepts_each_allowUser (names : List String) : Step.Accepts (Step.each allowUser names) zone ↔
    names.Pairwise (fun name other => name ≠ other ∧ ¬ PolicyClash name other) ∧
      ∀ name ∈ names, Step.Accepts (allowUser name) zone := by
  induction names generalizing zone with
  | nil => exact iff_of_true ⟨(), zone, rfl⟩ ⟨.nil, by simp⟩
  | cons first rest ih =>
    have hnext := (backend_after_allowUser first zone).trans hbackend
    rw [Step.accepts_each_cons, List.pairwise_cons, List.forall_mem_cons]
    constructor
    · rintro ⟨hfirst, hrest⟩
      obtain ⟨hpairs, hall⟩ := (ih hnext).mp hrest
      have hall := fun name hname => (accepts_allowUser_after hbackend hfirst).mp (hall name hname)
      exact ⟨⟨fun name hname => (hall name hname).1, hpairs⟩, hfirst, fun name hname => (hall name hname).2⟩
    · rintro ⟨⟨hshares, hpairs⟩, hfirst, hall⟩
      refine ⟨hfirst, (ih hnext).mpr ⟨hpairs, fun name hname => ?_⟩⟩
      exact (accepts_allowUser_after hbackend hfirst).mpr ⟨hshares name hname, hall name hname⟩

end Grant

/-! ### Histories -/

/-- Whether an operation declares a user, with the policy or without it. -/
def Operation.DeclaresUser (name : String) (operation : Operation) (zone : Zone) : Prop :=
  operation = .allowUser name ∧ zone.backend = .route53 ∧ zone.pathOf (userId name) ∉ zone.resources.paths

def Operation.Grants (name : String) (operation : Operation) (zone : Zone) : Prop :=
  operation = .allowUser name ∧ Step.Accepts (Zone.allowUser name) zone

theorem userPath_mem_next_of_other (h : zone.Consistent) {operation : Operation}
    (hnone : ∀ other, ¬ operation.DeclaresUser other zone) :
    (operation.next zone).pathOf (userId name) ∈ (operation.next zone).resources.paths ↔
      operation ≠ .take ∧ zone.pathOf (userId name) ∈ zone.resources.paths := by
  by_cases hallow : ∃ other, operation = .allowUser other
  · obtain ⟨other, rfl⟩ := hallow
    have hsame : Operation.next (.allowUser other) zone = zone := by
      cases hbackend : zone.backend with
      | livedns => exact Step.after_of_error (allowUser_of_livedns other hbackend)
      | route53 =>
        have taken : zone.pathOf (userId other) ∈ zone.resources.paths := by
          by_contra hfree
          exact hnone other ⟨rfl, hbackend, hfree⟩
        exact Step.after_of_error (allowUser_of_user hbackend taken)
    rw [hsame]
    exact (and_iff_right nofun).symm
  · have hchange := change_next h operation
    rw [hchange.pathOf_eq]
    constructor
    · intro hmem
      obtain ⟨resource, hresource, hpath⟩ := List.mem_map.mp hmem
      rcases mem_resources_next h operation hresource with ⟨htake, hbefore⟩ | hadds
      · exact ⟨htake, List.mem_map.mpr ⟨resource, hbefore, hpath⟩⟩
      · exact absurd hpath (hadds.path_ne_userPath (fun other hother => hallow ⟨other, hother⟩) name)
    · rintro ⟨htake, hmem⟩
      exact hchange.paths_subset htake hmem

theorem userPath_mem_next (h : zone.Consistent) (operation : Operation) :
    (operation.next zone).pathOf (userId name) ∈ (operation.next zone).resources.paths ↔
      (operation ≠ .take ∧ zone.pathOf (userId name) ∈ zone.resources.paths) ∨
        ∃ other, (name = other ∨ name = other ++ "-policy") ∧ operation.DeclaresUser other zone := by
  by_cases hdeclares : ∃ other, operation.DeclaresUser other zone
  · obtain ⟨other, rfl, hbackend, hfree⟩ := hdeclares
    have hother : (∃ found, (name = found ∨ name = found ++ "-policy") ∧
        Operation.DeclaresUser found (.allowUser other) zone) ↔ name = other ∨ name = other ++ "-policy" := by
      constructor
      · rintro ⟨found, hname, hfound, -⟩
        obtain rfl := Operation.allowUser.inj hfound
        exact hname
      · exact fun hname => ⟨other, hname, rfl, hbackend, hfree⟩
    rw [hother, and_iff_right nofun, (change_next h _).pathOf_eq]
    exact userPath_mem_allowUser hbackend hfree
  · have hnone := not_exists.mp hdeclares
    rw [userPath_mem_next_of_other h hnone, or_iff_left]
    rintro ⟨other, -, hother⟩
    exact hnone other hother

/-- The path of a user is taken when the user, or the one whose policy lies there, was
declared since resources were last taken. -/
theorem userPath_run {backend : Backend} (hopen : Zone.open backend origin provider = .ok opened) (name : String)
    (operations : List Operation) :
    (opened.run operations).pathOf (userId name) ∈ (opened.run operations).resources.paths ↔
      SinceTake (fun operation zone => ∃ other, (name = other ∨ name = other ++ "-policy") ∧
        operation.DeclaresUser other zone) opened operations := by
  have hid : userId name ≠ "zone" := by
    intro hid
    have hlist := congrArg String.toList hid
    simp [userId, String.toList_append] at hlist
  exact mem_paths_run (consistent_open hopen) (notMem_paths_open hopen hid)
    (fun _ operation h => userPath_mem_next h operation) operations

/-- Whether a user was granted since resources were last taken, or another one declared
that clashes with it. -/
def UserTaken (name : String) (opened : Zone) (operations : List Operation) : Prop :=
  SinceTake (Operation.Grants name) opened operations ∨
    SinceTake (fun operation zone => ∃ other, PolicyClash name other ∧ operation.DeclaresUser other zone) opened
      operations

theorem Operation.Grants.declaresUser {operation : Operation} (h : operation.Grants name zone) :
    operation.DeclaresUser name zone := by
  obtain ⟨rfl, value, next, hrun⟩ := h
  obtain ⟨hbackend, -⟩ := allowUser_ok hrun
  exact ⟨rfl, hbackend, ((accepts_allowUser hbackend).mp ⟨value, next, hrun⟩).1⟩

section Reached
variable (hopen : Zone.open .route53 origin provider = .ok opened)

include hopen

/-- A path of a policy that is taken while the user's is free is taken by the user of the
longer name. -/
theorem declared_of_policyPath
    (huser : (opened.run operations).pathOf (userId name) ∉ (opened.run operations).resources.paths)
    (hpolicy : (opened.run operations).pathOf (userId (name ++ "-policy")) ∈ (opened.run operations).resources.paths) :
    SinceTake (Operation.DeclaresUser (name ++ "-policy")) opened operations := by
  obtain ⟨before, operation, later, rfl, htake, other, rfl | hname, hdeclares⟩ :=
    (userPath_run hopen (name ++ "-policy") operations).mp hpolicy
  · exact ⟨before, operation, later, rfl, htake, hdeclares⟩
  · obtain rfl : name = other := (String.append_left_inj _).mp hname
    exact absurd ((userPath_run hopen name _).mpr
      ⟨before, operation, later, rfl, htake, name, Or.inl rfl, hdeclares⟩) huser

/-- A user that was declared was granted, or the path of its policy was taken by then. -/
theorem userTaken_of_declared (h : SinceTake (Operation.DeclaresUser name) opened operations) :
    UserTaken name opened operations := by
  obtain ⟨before, operation, later, rfl, htake, rfl, hbackend, hfree⟩ := h
  by_cases hpolicy : (opened.run before).pathOf (userId (name ++ "-policy")) ∈ (opened.run before).resources.paths
  · have hdeclared : SinceTake (Operation.DeclaresUser (name ++ "-policy")) opened
        (before ++ .allowUser name :: later) :=
      (declared_of_policyPath hopen hfree hpolicy).append (by simp [htake])
    exact Or.inr (hdeclared.imp fun operation zone hdeclares => ⟨_, Or.inr rfl, hdeclares⟩)
  · exact Or.inl ⟨before, _, later, rfl, htake, rfl, (accepts_allowUser hbackend).mpr ⟨hfree, hpolicy⟩⟩

theorem userTaken_iff : UserTaken name opened operations ↔
    (opened.run operations).pathOf (userId name) ∈ (opened.run operations).resources.paths ∨
      (opened.run operations).pathOf (userId (name ++ "-policy")) ∈ (opened.run operations).resources.paths := by
  rw [userPath_run hopen, userPath_run hopen]
  constructor
  · rintro (⟨before, operation, later, rfl, htake, hgrants⟩ |
      ⟨before, operation, later, rfl, htake, other, hclash | hclash, hdeclares⟩)
    · exact Or.inl ⟨before, operation, later, rfl, htake, name, Or.inl rfl, hgrants.declaresUser⟩
    · exact Or.inl ⟨before, operation, later, rfl, htake, other, Or.inr hclash, hdeclares⟩
    · exact Or.inr ⟨before, operation, later, rfl, htake, other, Or.inl hclash.symm, hdeclares⟩
  · rintro (⟨before, operation, later, rfl, htake, other, rfl | hname, hdeclares⟩ |
      ⟨before, operation, later, rfl, htake, other, hname | hname, hdeclares⟩)
    · exact userTaken_of_declared hopen ⟨before, operation, later, rfl, htake, hdeclares⟩
    · exact Or.inr ⟨before, operation, later, rfl, htake, other, Or.inl hname, hdeclares⟩
    · exact Or.inr ⟨before, operation, later, rfl, htake, other, Or.inr hname.symm, hdeclares⟩
    · obtain rfl : name = other := (String.append_left_inj _).mp hname
      exact userTaken_of_declared hopen ⟨before, operation, later, rfl, htake, hdeclares⟩

theorem accepts_allowUser_run : Step.Accepts (allowUser name) (opened.run operations) ↔
    ¬ UserTaken name opened operations := by
  rw [accepts_allowUser (backend_run hopen operations), userTaken_iff hopen, not_or]

/-- A user is granted whole, or it is refused since it was granted before or clashes with
another one. Refused, it leaves nothing behind unless only its policy clashes. -/
theorem allowUser_refused_iff (operations : List Operation) :
    let zone := opened.run operations
    (∀ name next, allowUser name zone = .ok () next →
      ∃ user policy set, next = { zone with resources := set } ∧
        set.toList = zone.resources.toList ++ [user, policy] ∧ user.kind = .iamUser ∧ policy.kind = .iamUserPolicy ∧
        user.text? "name" = some name ∧ policy.text? "user" = some (user.reference "name").interpolate ∧
        policy.text? "policy" = some (Json.compact (rightsOn (zone.hostedZone.reference "arn")))) ∧
    (∀ name, (∃ fault next, allowUser name zone = .error fault next) ↔ UserTaken name opened operations) ∧
    (∀ name fault next, allowUser name zone = .error fault next →
      (next = zone ∧ fault = .duplicateResource (zone.pathOf ("IAM-" ++ name))) ∨
      (SinceTake (Operation.DeclaresUser (name ++ "-policy")) opened operations ∧
        fault = .duplicateResource (zone.pathOf ("IAM-" ++ (name ++ "-policy"))) ∧
        ∃ set, next = { zone with resources := set } ∧ set.toList = zone.resources.toList ++ [zone.user name])) ∧
    (∀ names, Step.Accepts (Step.each allowUser names) zone ↔
      names.Pairwise (fun name other => name ≠ other ∧ ¬ PolicyClash name other) ∧
        ∀ name ∈ names, ¬ UserTaken name opened operations) := by
  intro zone
  have hbackend : zone.backend = .route53 := backend_run hopen operations
  refine ⟨?_, ?_, ?_, ?_⟩
  · intro name next hrun
    obtain ⟨-, set, rfl, hset⟩ := allowUser_ok hrun
    refine ⟨zone.user name, zone.userPolicy name, set, rfl, hset, rfl, rfl, ?_, ?_, ?_⟩
    · simp [user]
    · simp [userPolicy]
    · simp [userPolicy]
      rfl
  · intro name
    rw [← not_not (a := UserTaken name opened operations), ← accepts_allowUser_run hopen]
    constructor
    · rintro ⟨fault, next, hrun⟩
      exact Step.not_accepts_of_error hrun
    · intro hrefused
      cases hrun : allowUser name zone with
      | ok value next => exact absurd ⟨value, next, hrun⟩ hrefused
      | error fault next => exact ⟨fault, next, rfl⟩
  · intro name fault next hrun
    by_cases huser : zone.pathOf (userId name) ∈ zone.resources.paths
    · rw [allowUser_of_user hbackend huser] at hrun
      cases hrun
      exact Or.inl ⟨rfl, rfl⟩
    · by_cases hpolicy : zone.pathOf (userId (name ++ "-policy")) ∈ zone.resources.paths
      · obtain ⟨set, hrefused, hset⟩ := allowUser_of_policy hbackend huser hpolicy
        rw [hrefused] at hrun
        cases hrun
        exact Or.inr ⟨declared_of_policyPath hopen huser hpolicy, rfl, set, rfl, hset⟩
      · obtain ⟨set, haccepted, -⟩ := allowUser_of_free hbackend huser hpolicy
        rw [haccepted] at hrun
        cases hrun
  · intro names
    rw [accepts_each_allowUser hbackend]
    simp only [zone, accepts_allowUser_run hopen]

end Reached

/-- Two users are granted in a zone just opened, and the first one again is refused
without a change. -/
theorem allowUser_refused_iff_acme :
    ∃ opened, Zone.open .route53 ⟨"acme.luffy.cx", { acmeRoot := "luffy.cx" }⟩ ⟨.aws, "main", []⟩ = .ok opened ∧
      Step.Accepts (Step.each allowUser ["ACME", "cert"]) opened ∧
      ∃ fault, allowUser "ACME" (opened.run [.allowUser "ACME"]) = .error fault (opened.run [.allowUser "ACME"]) := by
  obtain ⟨opened, hopen⟩ : ∃ opened,
      Zone.open .route53 ⟨"acme.luffy.cx", { acmeRoot := "luffy.cx" }⟩ ⟨.aws, "main", []⟩ = .ok opened :=
    exists_open (by decide +kernel) rfl
  have hnone : ∀ name, ¬ UserTaken name opened [] := fun name h => h.elim not_sinceTake_nil not_sinceTake_nil
  obtain ⟨-, hrefused, -, hlists⟩ := allowUser_refused_iff hopen []
  have hpairs : ["ACME", "cert"].Pairwise (fun name other => name ≠ other ∧ ¬ PolicyClash name other) := by
    decide +kernel
  have hgranted : Step.Accepts (allowUser "ACME") opened := by
    cases hrun : allowUser "ACME" opened with
    | ok value next => exact ⟨value, next, hrun⟩
    | error fault next => exact absurd ((hrefused "ACME").mp ⟨fault, next, hrun⟩) (hnone "ACME")
  obtain ⟨-, hagain, hunchanged, -⟩ := allowUser_refused_iff hopen [.allowUser "ACME"]
  obtain ⟨fault, next, hrun⟩ := (hagain "ACME").mpr (Or.inl (sinceTake_singleton.mpr ⟨rfl, hgranted⟩))
  rcases hunchanged "ACME" fault next hrun with ⟨rfl, -⟩ | ⟨hother, -⟩
  · exact ⟨opened, hopen, (hlists _).mpr ⟨hpairs, fun name _ => hnone name⟩, fault, hrun⟩
  · obtain ⟨hname, -⟩ := sinceTake_singleton.mp hother
    exact absurd (Operation.allowUser.inj hname) (by decide)

/-- A user is refused that was not granted before, and the zone keeps it without a policy. -/
theorem allowUser_policy_refused :
    ∃ opened, Zone.open .route53 ⟨"acme.luffy.cx", { acmeRoot := "luffy.cx" }⟩ ⟨.aws, "main", []⟩ = .ok opened ∧
      Step.Accepts (allowUser "ACME-policy") opened ∧
      ¬ SinceTake (Operation.Grants "ACME") opened [.allowUser "ACME-policy"] ∧
      ∃ set, allowUser "ACME" (opened.run [.allowUser "ACME-policy"]) =
          .error (.duplicateResource "R53-acme.luffy.cx/IAM-ACME-policy")
            { opened.run [.allowUser "ACME-policy"] with resources := set } ∧
        set.toList = (opened.run [.allowUser "ACME-policy"]).resources.toList ++
          [(opened.run [.allowUser "ACME-policy"]).user "ACME"] := by
  obtain ⟨opened, hopen⟩ : ∃ opened,
      Zone.open .route53 ⟨"acme.luffy.cx", { acmeRoot := "luffy.cx" }⟩ ⟨.aws, "main", []⟩ = .ok opened :=
    exists_open (by decide +kernel) rfl
  obtain ⟨hbackend, -⟩ := open_eq_ok hopen
  have hfirst : Operation.DeclaresUser "ACME-policy" (.allowUser "ACME-policy") opened :=
    ⟨rfl, hbackend, notMem_paths_open hopen (by decide)⟩
  have hgranted : Step.Accepts (allowUser "ACME-policy") opened :=
    (accepts_allowUser hbackend).mpr ⟨hfirst.2.2, notMem_paths_open hopen (by decide)⟩
  have huser : (opened.run [.allowUser "ACME-policy"]).pathOf (userId "ACME") ∉
      (opened.run [.allowUser "ACME-policy"]).resources.paths := by
    rw [userPath_run hopen, sinceTake_singleton]
    rintro ⟨other, hname, hother, -⟩
    obtain rfl := Operation.allowUser.inj hother
    revert hname
    decide
  have hpolicy : (opened.run [.allowUser "ACME-policy"]).pathOf (userId ("ACME" ++ "-policy")) ∈
      (opened.run [.allowUser "ACME-policy"]).resources.paths :=
    (userPath_run hopen _ _).mpr (sinceTake_singleton.mpr ⟨"ACME-policy", Or.inl (by decide), hfirst⟩)
  obtain ⟨set, hrun, hset⟩ := allowUser_of_policy (backend_run hopen _) huser hpolicy
  have hpath : (opened.run [.allowUser "ACME-policy"]).pathOf (userId ("ACME" ++ "-policy")) =
      "R53-acme.luffy.cx/IAM-ACME-policy" := by
    rw [pathOf_run hopen]
    decide
  rw [hpath] at hrun
  refine ⟨opened, hopen, hgranted, ?_, set, hrun, hset⟩
  intro hsince
  obtain ⟨hname, -⟩ := sinceTake_singleton.mp hsince
  exact absurd (Operation.allowUser.inj hname) (by decide)

end ZoneGraph.Zone
