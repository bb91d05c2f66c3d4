import ZoneGraph.Proofs.DomainName.Characters
import ZoneGraph.Proofs.Stack.Declarations
import ZoneGraph.Proofs.Zone.Holdings
import ZoneGraph.Proofs.Zone.Managed
import Mathlib.Data.List.Nodup

/-! Zones do not step on each other. What a zone holds lies below the path of the zone,
carries its name and is bound to its provider, or to the registrar's when it was declared
at a registration. The name of a zone has no slash, so two zones that differ in backend or
in name share no path, and a stack absorbs any number of such zones. -/
namespace ZoneGraph

/-! ### Paths -/

namespace Zone

section Zones
variable {zone other : Zone} {id id' : String}

theorem path_eq_iff : zone.path = other.path ↔ zone.backend = other.backend ∧ zone.name = other.name := by
  constructor
  · intro h
    have hbackend : zone.backend = other.backend := by
      -- The paths of the backends begin with different letters.
      have hfirst := congrArg (fun text => text.toList.head?) h
      cases hzone : zone.backend <;> cases hother : other.backend <;>
        simp [path, hzone, hother, Backend.pathStart, String.toList_append] at hfirst ⊢
    rw [path, path, hbackend] at h
    exact ⟨hbackend, (String.append_right_inj _).mp h⟩
  · rintro ⟨hbackend, hname⟩
    rw [path, path, hbackend, hname]

theorem slash_notMem_path (h : '/' ∉ zone.name.toList) : '/' ∉ zone.path.toList := by
  have hstart : '/' ∉ (zone.backend.pathStart ++ "-").toList := by
    cases zone.backend <;> decide
  rw [path, String.toList_append, List.mem_append, not_or]
  exact ⟨hstart, h⟩

/-- The first slash of a path ends the path of the zone. -/
theorem pathOf_eq_iff (h : '/' ∉ zone.name.toList) (h' : '/' ∉ other.name.toList) :
    zone.pathOf id = other.pathOf id' ↔ (zone.backend = other.backend ∧ zone.name = other.name) ∧ id = id' := by
  have hlist : ∀ (zone : Zone) (id : String), (zone.pathOf id).toList = zone.path.toList ++ '/' :: id.toList := by
    intro zone id
    rw [pathOf, String.toList_append, String.toList_append, List.append_assoc]
    rfl
  rw [← path_eq_iff, ← String.toList_inj, hlist, hlist, append_mark_inj (slash_notMem_path h) (slash_notMem_path h'),
    String.toList_inj, String.toList_inj]

end Zones

/-! ### What zones add -/

section Added
variable {zone : Zone} {resource : Resource} {operation : Operation}

theorem zone_recordResource (record : Record) (zone : Zone) : (zone.recordResource record).zone = some zone.name := by
  cases hbackend : zone.backend with
  | livedns =>
    rw [recordResource_of_livedns hbackend]
    rfl
  | route53 =>
    rw [recordResource_of_route53 hbackend, route53Record, zone_addRouting]
    rfl

/-- What an operation adds lies below the zone and carries its name. -/
theorem Operation.Adds.placed (h : operation.Adds zone resource) :
    (∃ id, resource.path = zone.pathOf id) ∧ resource.zone = some zone.name := by
  cases h with
  | record _ _ record => exact ⟨⟨record.path, path_recordResource record zone⟩, zone_recordResource record zone⟩
  | livednsKey => exact ⟨⟨"KSK", rfl⟩, rfl⟩
  | hostedZoneKey => exact ⟨⟨"KSK", rfl⟩, rfl⟩
  | hostedZoneSigning => exact ⟨⟨"DNSSEC", rfl⟩, rfl⟩
  | user _ name => exact ⟨⟨"IAM-" ++ name, rfl⟩, rfl⟩
  | userPolicy _ name => exact ⟨⟨"IAM-" ++ name ++ "-policy", rfl⟩, rfl⟩
  | lookup => exact ⟨⟨"LiveDNSNS", rfl⟩, rfl⟩
  | registeredNameservers => exact ⟨⟨"NS", rfl⟩, rfl⟩
  | registeredKey => exact ⟨⟨"NSSEC", rfl⟩, rfl⟩

/-- The kinds of the resources that are declared at a registrar. -/
def registrarKinds : List ResourceKind := [.registeredNameservers, .registeredKey]

/-- A zone's own resource of a kind of its backend is bound to its provider. -/
theorem bound_own (kind : ResourceKind) (hkind : resource.kind = kind) (hown : kind ∉ registrarKinds)
    (hprovider : resource.provider = zone.provider.reference)
    (hmanaged : kind.providerKind = zone.backend.providerKind) :
    resource.kind ∉ registrarKinds ∧ resource.ManagedBy zone.provider := by
  subst hkind
  exact ⟨hown, managedBy_own hprovider hmanaged⟩

theorem kind_recordResource_notMem (record : Record) (zone : Zone) :
    (zone.recordResource record).kind ∉ registrarKinds := by
  have hnone : ∀ kind ∈ registrarKinds, kind.isRecord = false := by decide
  intro hmem
  have hrecord := isRecord_recordResource record zone
  rw [hnone _ hmem] at hrecord
  cases hrecord

/-- What an operation adds is bound to the registrar if it registers and else to the zone's
own provider. -/
theorem Operation.Adds.bound (h : operation.Adds zone resource) :
    (resource.kind ∈ registrarKinds ∧ ∃ registrar dnssec, operation = .register registrar dnssec ∧
      Step.Accepts (Zone.register registrar dnssec) zone ∧ resource.ManagedBy registrar) ∨
    (resource.kind ∉ registrarKinds ∧ resource.ManagedBy zone.provider) := by
  have hregistered : ∀ {registrar : Provider} {dnssec : Bool},
      (Operation.register registrar dnssec).Registers zone → registrar.kind = .gandi := by
    rintro registrar dnssec ⟨⟨⟩, next, hrun⟩
    exact kind_of_register hrun
  cases h with
  | record _ _ record =>
    exact Or.inr ⟨kind_recordResource_notMem record zone, managedBy_recordResource record zone⟩
  | livednsKey _ _ hbackend => exact Or.inr (bound_own .livednsKey rfl (by decide) rfl (by rw [hbackend]; rfl))
  | hostedZoneKey _ _ hbackend => exact Or.inr (bound_own .hostedZoneKey rfl (by decide) rfl (by rw [hbackend]; rfl))
  | hostedZoneSigning _ _ hbackend =>
    exact Or.inr (bound_own .hostedZoneSigning rfl (by decide) rfl (by rw [hbackend]; rfl))
  | user _ _ hbackend => exact Or.inr (bound_own .iamUser rfl (by decide) rfl (by rw [hbackend]; rfl))
  | userPolicy _ _ hbackend => exact Or.inr (bound_own .iamUserPolicy rfl (by decide) rfl (by rw [hbackend]; rfl))
  | lookup _ _ hneeds => exact Or.inr (bound_own .livednsLookup rfl (by decide) rfl (by rw [hneeds.1]; rfl))
  | registeredNameservers _ registrar dnssec _ hregisters =>
    exact Or.inl ⟨List.mem_cons_self .., registrar, dnssec, rfl, hregisters, rfl, hregistered hregisters⟩
  | registeredKey _ registrar dnssec _ hregisters =>
    exact Or.inl ⟨List.mem_cons_of_mem _ (List.mem_cons_self ..), registrar, dnssec, rfl, hregisters, rfl,
      hregistered hregisters⟩

end Added

/-! ### Histories -/

/-- A zone that was opened and what was done to it since then. -/
structure History where
  backend : Backend
  origin : Origin
  provider : Provider
  opened : Zone
  opens : Zone.open backend origin provider = .ok opened
  operations : List Operation

namespace History

variable {history other : History} {resource : Resource}

def zone (history : History) : Zone := history.opened.run history.operations

/-- Whether two zones are on one backend and of one name. -/
def SameZone (history other : History) : Prop :=
  history.backend = other.backend ∧ history.origin.name = other.origin.name

theorem isNameChar_name (history : History) : ∀ c ∈ history.origin.name.toList, DomainName.IsNameChar c := by
  have hopens := history.opens
  unfold Zone.open at hopens
  cases hparse : DomainName.parseZone history.origin.name with
  | error fault => simp [hparse] at hopens
  | ok name => exact DomainName.isNameChar_of_parseZone hparse

theorem pathOf_zone (history : History) (id : String) :
    history.zone.pathOf id = history.backend.pathStart ++ "-" ++ history.origin.name ++ "/" ++ id :=
  pathOf_run history.opens history.operations id

theorem name_zone (history : History) : history.zone.name = history.origin.name :=
  congrArg Origin.name (origin_run history.opens history.operations)

/-- What a zone holds was added since resources were last taken, or it is the hosted zone
that it was opened with. -/
theorem added_or_hosted (h : resource ∈ history.zone.resources.toList) :
    (history.backend = .route53 ∧ resource = history.opened.hostedZone) ∨
      SinceTake (fun operation zone => operation.Adds zone resource) history.opened history.operations := by
  refine (mem_resources_run (consistent_open history.opens) h).imp_left fun ⟨_, hfirst⟩ => ?_
  obtain ⟨-, -, -, -, -, hresources⟩ := open_eq_ok history.opens
  rw [hresources] at hfirst
  split at hfirst
  · rename_i hbackend
    exact ⟨hbackend, List.mem_singleton.mp hfirst⟩
  · cases hfirst

theorem placed (h : resource ∈ history.zone.resources.toList) :
    (∃ id, resource.path = history.zone.pathOf id) ∧ resource.zone = some history.origin.name := by
  rcases added_or_hosted h with ⟨-, rfl⟩ | ⟨before, operation, later, -, -, hadds⟩
  · obtain ⟨hbackend, horigin, -⟩ := open_eq_ok history.opens
    rw [← horigin]
    refine ⟨⟨"zone", ?_⟩, rfl⟩
    rw [pathOf_zone, ← hbackend, ← horigin]
    rfl
  · obtain ⟨⟨id, hpath⟩, hzone⟩ := hadds.placed
    refine ⟨⟨id, ?_⟩, ?_⟩
    · rw [hpath, pathOf_run history.opens, pathOf_zone]
    · rw [hzone, name, origin_run history.opens]

theorem bound (h : resource ∈ history.zone.resources.toList) :
    (resource.kind ∈ registrarKinds ∧ ∃ registrar, resource.ManagedBy registrar ∧
      SinceTake (fun operation zone => ∃ dnssec, operation = .register registrar dnssec ∧
        Step.Accepts (register registrar dnssec) zone) history.opened history.operations) ∨
    (resource.kind ∉ registrarKinds ∧ resource.ManagedBy history.provider) := by
  obtain ⟨hbackend, -, hprovider, -⟩ := open_eq_ok history.opens
  rcases added_or_hosted h with ⟨hroute53, rfl⟩ | ⟨before, operation, later, hsplit, htake, hadds⟩
  · rw [← hprovider]
    exact Or.inr (bound_own .hostedZone rfl (by decide) rfl (by rw [hbackend, hroute53]; rfl))
  · rcases hadds.bound with ⟨hkind, registrar, dnssec, hoperation, hregisters, hmanaged⟩ | ⟨hkind, hmanaged⟩
    · exact Or.inl ⟨hkind, registrar, hmanaged, before, operation, later, hsplit, htake, dnssec, hoperation, hregisters⟩
    · rw [provider_run (consistent_open history.opens), hprovider] at hmanaged
      exact Or.inr ⟨hkind, hmanaged⟩

/-- Zones that differ in backend or in name share no path. -/
theorem path_ne (hother : ¬ history.SameZone other) {resource' : Resource}
    (h : resource ∈ history.zone.resources.toList) (h' : resource' ∈ other.zone.resources.toList) :
    resource.path ≠ resource'.path := by
  have hslash : ∀ history : History, '/' ∉ history.zone.name.toList := by
    intro history
    rw [name_zone]
    exact fun hslash => DomainName.not_isNameChar_slash (isNameChar_name history _ hslash)
  obtain ⟨⟨id, hpath⟩, -⟩ := placed h
  obtain ⟨⟨id', hpath'⟩, -⟩ := placed h'
  rw [hpath, hpath', Ne, pathOf_eq_iff (hslash history) (hslash other), name_zone, name_zone, zone,
    backend_run history.opens, zone, backend_run other.opens]
  exact fun hsame => hother hsame.1

end History

/-- The resources of zones that differ in backend or in name can lie in one collection. -/
theorem nodup_paths_of_histories {histories : List History}
    (h : histories.Pairwise fun history other => ¬ history.SameZone other) :
    ((histories.flatMap fun history => history.zone.resources.toList).map Resource.path).Nodup := by
  rw [List.map_flatMap, List.nodup_flatMap]
  refine ⟨fun history _ => history.zone.resources.nodup, h.imp fun hother => ?_⟩
  intro path hpath hpath'
  obtain ⟨resource, hresource, rfl⟩ := List.mem_map.mp hpath
  obtain ⟨resource', hresource', hsame⟩ := List.mem_map.mp hpath'
  exact History.path_ne hother hresource hresource' hsame.symm

/-- Zones hold what lies below their own path, carries their name and is bound to the right
provider. Zones that differ in backend or in name share no path, since no name has a slash,
and a stack absorbs any number of them. -/
theorem zones_separate :
    (∀ history : History, (history.zone.resources.toList.map Resource.path).Nodup ∧
      ∀ resource ∈ history.zone.resources.toList,
        (∃ id, resource.path = history.backend.pathStart ++ "-" ++ history.origin.name ++ "/" ++ id) ∧
        resource.zone = some history.origin.name ∧
        (resource.kind ∈ [.registeredNameservers, .registeredKey] → ∃ registrar : Provider,
          resource.provider = registrar.reference ∧ registrar.kind = resource.kind.providerKind ∧
          SinceTake (fun operation zone => ∃ dnssec, operation = .register registrar dnssec ∧
            Step.Accepts (register registrar dnssec) zone) history.opened history.operations) ∧
        (resource.kind ∉ [.registeredNameservers, .registeredKey] →
          resource.provider = history.provider.reference ∧
            history.provider.kind = resource.kind.providerKind)) ∧
    (∀ history : History, ∀ c ∈ history.origin.name.toList, c.isAlphanum = true ∨ c ∈ ['_', '-', '.', '*', '\\']) ∧
    (∀ history other : History, ¬ history.SameZone other →
      ∀ resource ∈ history.zone.resources.toList, ∀ resource' ∈ other.zone.resources.toList,
        resource.path ≠ resource'.path) ∧
    (∀ histories : List History, histories.Pairwise (fun history other => ¬ history.SameZone other) →
      ∀ stack : Stack, stack.resources = .empty →
        ∃ set, Step.each (fun history : History => Stack.absorb history.zone.resources.toList) histories stack =
            .ok () { stack with resources := set } ∧
          set.toList = histories.flatMap fun history => history.zone.resources.toList) := by
  refine ⟨fun history => ⟨history.zone.resources.nodup, fun resource h => ⟨?_, (History.placed h).2, ?_, ?_⟩⟩,
    History.isNameChar_name, fun history other hother resource h resource' h' => History.path_ne hother h h', ?_⟩
  · obtain ⟨⟨id, hpath⟩, -⟩ := History.placed h
    exact ⟨id, hpath.trans (History.pathOf_zone history id)⟩
  · intro hkind
    rcases History.bound h with ⟨-, registrar, hmanaged, hsince⟩ | ⟨hother, -⟩
    · exact ⟨registrar, hmanaged.reference, hmanaged.kind, hsince⟩
    · exact absurd hkind hother
  · intro hkind
    rcases History.bound h with ⟨hother, -⟩ | ⟨-, hmanaged⟩
    · exact absurd hother hkind
    · exact ⟨hmanaged.reference, hmanaged.kind⟩
  · intro histories hhistories stack hempty
    refine ⟨⟨_, nodup_paths_of_histories hhistories⟩, ?_, rfl⟩
    rw [Stack.each_absorb_eq_ok, Stack.absorb_eq_ok, hempty]
    exact ⟨_, rfl, rfl⟩

/-- The zones of one name on the two backends, the first one registered, are absorbed by one
stack. -/
theorem zones_separate_luffy :
    ∃ history other : History, history.backend = .livedns ∧ other.backend = .route53 ∧
      history.origin.name = "luffy.cx" ∧ other.origin.name = "luffy.cx" ∧
      history.operations = [.register ⟨.gandi, "vb", []⟩ false] ∧ other.operations = [.allowUser "ACME"] ∧
      Step.Accepts (Step.each (fun history : History => Stack.absorb history.zone.resources.toList) [history, other])
        { name := "luffy" } := by
  obtain ⟨opened, hopen⟩ : ∃ opened,
      Zone.open .livedns ⟨"luffy.cx", { acmeRoot := "luffy.cx" }⟩ ⟨.gandi, "vb", []⟩ = .ok opened :=
    exists_open (by decide +kernel) rfl
  obtain ⟨opened', hopen'⟩ : ∃ opened,
      Zone.open .route53 ⟨"luffy.cx", { acmeRoot := "luffy.cx" }⟩ ⟨.aws, "main", []⟩ = .ok opened :=
    exists_open (by decide +kernel) rfl
  let history : History := ⟨_, _, _, opened, hopen, [.register ⟨.gandi, "vb", []⟩ false]⟩
  let other : History := ⟨_, _, _, opened', hopen', [.allowUser "ACME"]⟩
  have hother : ¬ history.SameZone other := fun hsame => Backend.noConfusion hsame.1
  obtain ⟨-, -, -, habsorb⟩ := zones_separate
  obtain ⟨set, hrun, -⟩ := habsorb [history, other]
    (List.pairwise_pair.mpr hother) { name := "luffy" } rfl
  exact ⟨history, other, rfl, rfl, rfl, rfl, rfl, rfl, (), _, hrun⟩

end Zone

end ZoneGraph
