import ZoneGraph.Proofs.Zone.Declarations
import ZoneGraph.Zone.Access
import ZoneGraph.Zone.Registration

/-! What signing, registration, access and the look-up of nameservers do to a zone. Each
adds resources at the end; the look-up and the signing key are kept beside them. No
operation changes what a zone is named after, so references to it stay the same. -/
namespace ZoneGraph.Zone

/-! ### Nameservers -/

/-- The reference to the nameservers of a zone, whether they were looked up or not. -/
def nameserversRef (zone : Zone) : AttrRef :=
  match zone.backend with
  | .livedns => zone.lookup.getD (zone.lookupResource.reference "nameservers")
  | .route53 => zone.hostedZone.reference "name_servers"

/-- Whether the nameservers have still to be looked up. -/
def needsLookup (zone : Zone) : Prop := zone.backend = .livedns ∧ zone.lookup = none

theorem nameserversRef_of_route53 {zone : Zone} (h : zone.backend = .route53) :
    zone.nameserversRef = zone.hostedZone.reference "name_servers" := by
  simp [nameserversRef, h]

theorem nameserversRef_of_livedns {zone : Zone} (h : zone.backend = .livedns) :
    zone.nameserversRef = zone.lookup.getD (zone.lookupResource.reference "nameservers") := by
  simp [nameserversRef, h]

theorem nameservers_eq_ok {zone next : Zone} {servers : Nameservers} :
    nameservers zone = .ok servers next ↔
      servers = .reference zone.nameserversRef ∧
        ((¬ zone.needsLookup ∧ next = zone) ∨
          (zone.needsLookup ∧ ∃ fresh, next = { zone with
            resources := zone.resources.append zone.lookupResource fresh
            lookup := some zone.nameserversRef })) := by
  unfold nameservers needsLookup
  split
  · rename_i hbackend
    simp [hbackend, nameserversRef_of_route53 hbackend, eq_comm]
  · rename_i ref hbackend hlookup
    simp [hbackend, hlookup, nameserversRef_of_livedns hbackend, eq_comm]
  · rename_i hbackend hlookup
    have href : zone.nameserversRef = zone.lookupResource.reference "nameservers" := by
      rw [nameserversRef_of_livedns hbackend, hlookup, Option.getD_none]
    rw [href]
    cases he : emit zone.lookupResource zone with
    | error fault state =>
      obtain ⟨taken, -, -⟩ := emit_eq_error.mp he
      simp [taken, hbackend, hlookup]
    | ok value state =>
      obtain ⟨fresh, rfl⟩ := emit_eq_ok.mp he
      constructor
      · intro h
        cases h
        exact ⟨rfl, Or.inr ⟨⟨hbackend, hlookup⟩, fresh, rfl⟩⟩
      · rintro ⟨rfl, ⟨hn, -⟩ | ⟨-, -, rfl⟩⟩
        · exact absurd ⟨hbackend, hlookup⟩ hn
        · rfl

theorem known_of_lookup {zone : Zone} {ref : AttrRef} (hbackend : zone.backend = .livedns)
    (hlookup : zone.lookup = some ref) : ¬ zone.needsLookup ∧ zone.nameserversRef = ref := by
  constructor
  · rintro ⟨-, hnone⟩
    rw [hlookup] at hnone
    cases hnone
  · rw [nameserversRef_of_livedns hbackend, hlookup, Option.getD_some]

/-- Once it was asked for its nameservers, a zone has looked them up. -/
theorem nameservers_known {zone next : Zone} {servers : Nameservers}
    (h : nameservers zone = .ok servers next) :
    ¬ next.needsLookup ∧ servers = .reference next.nameserversRef := by
  obtain ⟨rfl, ⟨hn, hnext⟩ | ⟨hn, fresh, hnext⟩⟩ := nameservers_eq_ok.mp h
  · rw [hnext]
    exact ⟨hn, rfl⟩
  · have hbackend : next.backend = .livedns := by rw [hnext, hn.1]
    have hlookup : next.lookup = some zone.nameserversRef := by rw [hnext]
    obtain ⟨hknown, href⟩ := known_of_lookup hbackend hlookup
    exact ⟨hknown, congrArg Nameservers.reference href.symm⟩

/-- Asked again, a zone gives the nameservers that it gave before. -/
theorem nameservers_again {zone next : Zone} {servers : Nameservers}
    (h : nameservers zone = .ok servers next) : nameservers next = .ok servers next := by
  obtain ⟨hn, hservers⟩ := nameservers_known h
  exact nameservers_eq_ok.mpr ⟨hservers, Or.inl ⟨hn, rfl⟩⟩

theorem summary_eq_ok {zone next : Zone} {summary : ZoneSummary} :
    Zone.summary zone = .ok summary next ↔
      ∃ servers, nameservers zone = .ok servers next ∧
        summary = ⟨next.name, servers, next.key.map SigningKey.dsRecord⟩ := by
  unfold Zone.summary
  rw [Step.bind_eq_ok]
  constructor
  · rintro ⟨servers, between, hn, h⟩
    cases h
    exact ⟨servers, hn, rfl⟩
  · rintro ⟨servers, hn, rfl⟩
    exact ⟨servers, next, hn, rfl⟩

/-! ### Signing -/

/-- The key that a zone is signed with, its resources and the key as it is known. -/
inductive Signs (zone : Zone) : Option SigningKeyHandle → List Resource → SigningKey → Prop where
  | livedns (handle : Option SigningKeyHandle) (h : zone.backend = .livedns) :
      Signs zone handle [zone.livednsKey] (keyOf zone.livednsKey "algorithm" "ds")
  | route53 (handle : SigningKeyHandle) (h : zone.backend = .route53) :
      Signs zone (some handle) [zone.hostedZoneKey handle, zone.hostedZoneSigning (zone.hostedZoneKey handle)]
        (keyOf (zone.hostedZoneKey handle) "signing_algorithm_type" "ds_record")

theorem sign_ok {handle : Option SigningKeyHandle} {zone next : Zone} (h : sign handle zone = .ok () next) :
    (zone.key.isSome ∧ next = zone) ∨
      ∃ added key set, Signs zone handle added key ∧ zone.key = none ∧
        next = { zone with resources := set, key := some key } ∧
        set.toList = zone.resources.toList ++ added := by
  unfold sign at h
  split at h
  · rename_i key hkey
    cases h
    exact Or.inl ⟨by simp [hkey], rfl⟩
  · rename_i hkey hbackend
    rw [signLivedns, Step.get_bind] at h
    obtain ⟨⟨⟩, emitted, he, h⟩ := Step.bind_eq_ok.mp h
    obtain ⟨fresh, rfl⟩ := emit_eq_ok.mp he
    cases h
    exact Or.inr ⟨_, _, _, .livedns _ hbackend, hkey, rfl, rfl⟩
  · rename_i handle hkey hbackend
    rw [signRoute53, Step.get_bind] at h
    obtain ⟨⟨⟩, emitted, he, h⟩ := Step.bind_eq_ok.mp h
    obtain ⟨fresh, rfl⟩ := emit_eq_ok.mp he
    obtain ⟨⟨⟩, switched, he, h⟩ := Step.bind_eq_ok.mp h
    obtain ⟨fresh', rfl⟩ := emit_eq_ok.mp he
    cases h
    exact Or.inr ⟨_, _, _, .route53 handle hbackend, hkey, rfl, by simp⟩
  · cases h

/-! ### Access -/

theorem allowUser_ok {name : String} {zone next : Zone} (h : allowUser name zone = .ok () next) :
    zone.backend = .route53 ∧
      ∃ set, next = { zone with resources := set } ∧
        set.toList = zone.resources.toList ++ [zone.user name, zone.userPolicy name] := by
  unfold allowUser at h
  split at h
  · cases h
  · rename_i hbackend
    obtain ⟨⟨⟩, emitted, he, h⟩ := Step.bind_eq_ok.mp h
    obtain ⟨fresh, rfl⟩ := emit_eq_ok.mp he
    obtain ⟨fresh', rfl⟩ := emit_eq_ok.mp h
    exact ⟨hbackend, _, rfl, by simp [userPolicy, user]⟩

/-! ### Registration -/

theorem keyFor_eq_ok {dnssec : Bool} {zone : Zone} {key : Option SigningKey} :
    zone.keyFor dnssec = .ok key ↔ (dnssec = false ∧ key = none) ∨ (dnssec = true ∧ key.isSome ∧ key = zone.key) := by
  unfold keyFor
  cases dnssec <;> cases zone.key <;> cases key <;> simp [eq_comm]

theorem register_ok {registrar : Provider} {dnssec : Bool} {zone next : Zone}
    (h : register registrar dnssec zone = .ok () next) :
    ∃ key between set, zone.keyFor dnssec = .ok key ∧
      nameservers zone = .ok (.reference zone.nameserversRef) between ∧
      next = { between with resources := set } ∧
      set.toList = between.resources.toList ++
        zone.registeredNameservers registrar (.reference zone.nameserversRef) ::
          (key.map (zone.registeredKey registrar ·)).toList := by
  rw [register, Step.get_bind] at h
  obtain ⟨key, hkey, h⟩ := Step.lift_bind_eq_ok.mp h
  obtain ⟨⟨⟩, -, h⟩ := Step.lift_bind_eq_ok.mp h
  obtain ⟨servers, between, hservers, h⟩ := Step.bind_eq_ok.mp h
  obtain ⟨rfl, -⟩ := nameservers_eq_ok.mp hservers
  obtain ⟨⟨⟩, emitted, he, h⟩ := Step.bind_eq_ok.mp h
  obtain ⟨fresh, rfl⟩ := emit_eq_ok.mp he
  cases key with
  | none =>
    cases h
    exact ⟨none, between, _, hkey, hservers, rfl, rfl⟩
  | some key =>
    obtain ⟨fresh', rfl⟩ := emit_eq_ok.mp h
    exact ⟨some key, between, _, hkey, hservers, rfl, by simp⟩

/-! ### What stays the same -/

/-- Whether a zone is another one that has declared more since, with the same key. -/
def Extends (zone next : Zone) : Prop :=
  ∃ set lookup, next = { zone with resources := set, lookup } ∧ zone.resources.toList <+: set.toList

theorem Extends.refl (zone : Zone) : zone.Extends zone :=
  ⟨zone.resources, zone.lookup, rfl, List.prefix_rfl⟩

theorem Extends.trans {zone between next : Zone} (h : zone.Extends between) (h' : between.Extends next) :
    zone.Extends next := by
  obtain ⟨set, lookup, rfl, hset⟩ := h
  obtain ⟨set', lookup', rfl, hset'⟩ := h'
  exact ⟨set', lookup', rfl, hset.trans hset'⟩

theorem extends_nameservers : Step.Respects Extends nameservers := by
  intro zone servers next h
  obtain ⟨-, ⟨-, rfl⟩ | ⟨-, fresh, rfl⟩⟩ := nameservers_eq_ok.mp h
  · exact Extends.refl next
  · exact ⟨_, _, rfl, List.prefix_append _ _⟩

theorem extends_allowUser (name : String) : Step.Respects Extends (allowUser name) := by
  rintro zone ⟨⟩ next h
  obtain ⟨-, set, rfl, hset⟩ := allowUser_ok h
  exact ⟨_, _, rfl, hset ▸ List.prefix_append _ _⟩

theorem extends_register (registrar : Provider) (dnssec : Bool) :
    Step.Respects Extends (register registrar dnssec) := by
  rintro zone ⟨⟩ next h
  obtain ⟨key, between, set, -, hservers, rfl, hset⟩ := register_ok h
  exact (extends_nameservers _ _ _ hservers).trans ⟨_, _, rfl, hset ▸ List.prefix_append _ _⟩

theorem extends_perform (call : Call) : Step.Respects Extends (call.perform : Step Zone Unit) := by
  rintro zone ⟨⟩ next h
  obtain ⟨records, -, hrun⟩ := Call.perform_eq_ok.mp h
  obtain ⟨-, set, rfl, hset⟩ := each_declare_ok hrun
  exact ⟨_, _, rfl, hset ▸ List.prefix_append _ _⟩

theorem sign_extends {handle : Option SigningKeyHandle} {zone next : Zone} (h : sign handle zone = .ok () next) :
    ∃ key, Extends { zone with key := some key } next := by
  obtain ⟨hkey, rfl⟩ | ⟨added, key, set, -, -, rfl, hset⟩ := sign_ok h
  · obtain ⟨key, hkey⟩ := Option.isSome_iff_exists.mp hkey
    exact ⟨key, by rw [← hkey]; exact Extends.refl next⟩
  · exact ⟨key, _, _, rfl, hset ▸ List.prefix_append _ _⟩

end ZoneGraph.Zone
