import ZoneGraph.Proofs.Zone.Holdings

/-! Signing and what follows from it. Nothing but signing takes the paths of the key and of
the switch, so a zone that is not signed can be, whatever was done to it before, and it
keeps its key from then on. A key is at the registrar only when the zone was signed before
it was registered, and then it is the zone's own. -/
namespace ZoneGraph.Zone

variable {α β : Type} {zone next opened : Zone} {resource : Resource} {operation : Operation} {key : SigningKey}
  {handle : Option SigningKeyHandle} {backend : Backend} {origin : Origin} {provider : Provider}

/-! ### Operations that leave the key alone -/

/-- Whether an operation leaves the key of a zone as it is, refused or not. -/
def PreservesKey (step : Step Zone α) : Prop := ∀ zone, (Step.after step zone).key = zone.key

theorem preservesKey_bind {first : Step Zone α} {second : α → Step Zone β} (hfirst : PreservesKey first)
    (hsecond : ∀ value, PreservesKey (second value)) : PreservesKey (first >>= second) := by
  intro zone
  have hkey := hfirst zone
  cases h : first zone with
  | ok value between =>
    rw [Step.after_of_ok h] at hkey
    rw [Step.after_bind_of_ok h, hsecond value between, hkey]
  | error fault between =>
    rw [Step.after_of_error h] at hkey
    rw [Step.after_of_error (Step.bind_of_error h), hkey]

theorem preservesKey_pure (value : α) : PreservesKey (pure value) := fun _ => rfl

theorem preservesKey_get : PreservesKey (get : Step Zone Zone) := fun _ => rfl

theorem preservesKey_lift (result : Except Fault α) : PreservesKey (Step.lift result) := by
  intro zone
  cases result <;> rfl

theorem preservesKey_emit (resource : Resource) : PreservesKey (emit resource) := by
  intro zone
  cases h : emit resource zone with
  | ok value next =>
    obtain ⟨fresh, rfl⟩ := emit_eq_ok.mp h
    rw [Step.after_of_ok h]
  | error fault next =>
    obtain ⟨-, -, rfl⟩ := emit_eq_error.mp h
    rw [Step.after_of_error h]

theorem preservesKey_declare (record : Record) : PreservesKey (declare record) := by
  intro zone
  cases h : declare record zone with
  | ok value next =>
    obtain ⟨-, fresh, rfl⟩ := declare_eq_ok.mp h
    rw [Step.after_of_ok h]
  | error fault next => rw [Step.after_of_error h, (declare_eq_error.mp h).1]

theorem preservesKey_each (records : List Record) : PreservesKey (Step.each declare records) := by
  induction records with
  | nil => exact preservesKey_pure ()
  | cons record rest ih => exact preservesKey_bind (preservesKey_declare record) fun _ => ih

theorem preservesKey_allowUser (name : String) : PreservesKey (allowUser name) := by
  intro zone
  cases hbackend : zone.backend with
  | livedns => rw [Step.after_of_error (allowUser_of_livedns name hbackend)]
  | route53 =>
    rw [Step.after_congr (allowUser_of_route53 name hbackend)]
    exact preservesKey_bind (preservesKey_emit _) (fun _ => preservesKey_emit _) zone

theorem preservesKey_nameservers : PreservesKey nameservers := by
  intro zone
  cases h : nameservers zone with
  | ok servers next =>
    obtain ⟨set, lookup, rfl, -⟩ := extends_nameservers _ _ _ h
    rw [Step.after_of_ok h]
  | error fault next =>
    -- Only the declaration of the data source can be refused.
    rw [Step.after_of_error h]
    unfold nameservers at h
    split at h
    · cases h
    · cases h
    · split at h
      · rename_i hemit
        obtain ⟨-, -, rfl⟩ := emit_eq_error.mp hemit
        cases h
        rfl
      · cases h

theorem preservesKey_summary : PreservesKey summary :=
  preservesKey_bind preservesKey_nameservers fun _ => preservesKey_bind preservesKey_get fun _ => preservesKey_pure _

theorem preservesKey_register (registrar : Provider) (dnssec : Bool) : PreservesKey (register registrar dnssec) := by
  refine preservesKey_bind preservesKey_get fun zone => preservesKey_bind (preservesKey_lift _) fun key => ?_
  refine preservesKey_bind (preservesKey_lift _) fun _ => preservesKey_bind preservesKey_nameservers fun servers => ?_
  refine preservesKey_bind (preservesKey_emit _) fun _ => ?_
  cases key with
  | none => exact preservesKey_pure ()
  | some key => exact preservesKey_emit _

theorem preservesKey_perform (asked : Call) : PreservesKey (asked.perform : Step Zone Unit) :=
  preservesKey_bind preservesKey_get fun _ => preservesKey_bind (preservesKey_lift _) preservesKey_each

/-- Only signing changes the key of a zone. -/
theorem preservesKey_step (hsign : ∀ handle, operation ≠ .sign handle) : PreservesKey operation.step := by
  cases operation with
  | call asked => exact preservesKey_perform asked
  | sign handle => exact absurd rfl (hsign handle)
  | allowUser name => exact preservesKey_allowUser name
  | register registrar dnssec => exact preservesKey_register registrar dnssec
  | nameservers => exact preservesKey_bind preservesKey_nameservers fun _ => preservesKey_pure ()
  | summary => exact preservesKey_bind preservesKey_summary fun _ => preservesKey_pure ()
  | take => exact fun _ => rfl

/-! ### Signing a zone -/

/-- What only signing declares. -/
def signingIds : List String := ["KSK", "DNSSEC"]

/-- Whether the paths that signing needs are free in a zone that is not signed. -/
def Signable (zone : Zone) : Prop := zone.key = none → ∀ id ∈ signingIds, zone.pathOf id ∉ zone.resources.paths

theorem sign_of_signed (hkey : zone.key = some key) (handle : Option SigningKeyHandle) :
    sign handle zone = .ok () zone := by
  simp [sign, hkey]

theorem sign_of_missing (hkey : zone.key = none) (hbackend : zone.backend = .route53) :
    sign none zone = .error (.deployment (.needsSigningKey zone.name)) zone := by
  simp [sign, hkey, hbackend]

theorem sign_of_livedns (hkey : zone.key = none) (hbackend : zone.backend = .livedns)
    (hksk : zone.livednsKey.path ∉ zone.resources.paths) (handle : Option SigningKeyHandle) :
    sign handle zone = .ok () { zone with
      resources := zone.resources.append zone.livednsKey hksk
      key := some (keyOf zone.livednsKey "algorithm" "ds") } := by
  have hsign : sign handle zone = signLivedns zone := by simp [sign, hkey, hbackend]
  rw [hsign, signLivedns, Step.get_bind, Step.bind_of_ok (emit_eq_ok.mpr ⟨hksk, rfl⟩)]
  rfl

theorem sign_of_route53 (hkey : zone.key = none) (hbackend : zone.backend = .route53)
    (hksk : zone.pathOf "KSK" ∉ zone.resources.paths) (hswitch : zone.pathOf "DNSSEC" ∉ zone.resources.paths)
    (handle : SigningKeyHandle) :
    ∃ set, sign (some handle) zone = .ok () { zone with
        resources := set
        key := some (keyOf (zone.hostedZoneKey handle) "signing_algorithm_type" "ds_record") } ∧
      set.toList = zone.resources.toList ++
        [zone.hostedZoneKey handle, zone.hostedZoneSigning (zone.hostedZoneKey handle)] := by
  have hsign : sign (some handle) zone = signRoute53 handle zone := by simp [sign, hkey, hbackend]
  have hfirst : (zone.hostedZoneKey handle).path ∉ zone.resources.paths := hksk
  have hsecond : (zone.hostedZoneSigning (zone.hostedZoneKey handle)).path ∉
      (zone.resources.append (zone.hostedZoneKey handle) hfirst).paths := by
    rw [ResourceSet.paths_append, List.mem_append, List.mem_singleton, not_or]
    exact ⟨hswitch, mt pathOf_inj.mp (by decide)⟩
  refine ⟨(zone.resources.append _ hfirst).append _ hsecond, ?_, ?_⟩
  · rw [hsign, signRoute53, Step.get_bind, Step.bind_of_ok (emit_eq_ok.mpr ⟨hfirst, rfl⟩),
      Step.bind_of_ok (emit_eq_ok.mpr ⟨hsecond, rfl⟩)]
    rfl
  · rw [ResourceSet.toList_append, ResourceSet.toList_append, List.append_assoc]
    rfl

theorem backend_eq (zone : Zone) : zone.backend = .livedns ∨ zone.backend = .route53 := by
  cases zone.backend
  · exact Or.inl rfl
  · exact Or.inr rfl

/-- A zone that is not signed can be, with a handle where the backend needs one. -/
theorem sign_of_signable (h : zone.Signable) (hkey : zone.key = none)
    (hhandle : zone.backend = .route53 → handle.isSome) :
    ∃ added key set, zone.Signs handle added key ∧
      sign handle zone = .ok () { zone with resources := set, key := some key } ∧
      set.toList = zone.resources.toList ++ added := by
  have hksk : zone.pathOf "KSK" ∉ zone.resources.paths := h hkey "KSK" (by decide)
  have hswitch : zone.pathOf "DNSSEC" ∉ zone.resources.paths := h hkey "DNSSEC" (by decide)
  rcases zone.backend_eq with hbackend | hbackend
  · exact ⟨_, _, _, .livedns handle hbackend, sign_of_livedns hkey hbackend hksk handle, rfl⟩
  · obtain ⟨handle, rfl⟩ := Option.isSome_iff_exists.mp (hhandle hbackend)
    obtain ⟨set, hrun, hset⟩ := sign_of_route53 hkey hbackend hksk hswitch handle
    exact ⟨_, _, set, .route53 handle hbackend, hrun, hset⟩

/-- Nothing else that is declared lies where the key or the switch does. -/
theorem Operation.Adds.path_ne_signing (h : operation.Adds zone resource) (hsign : ∀ handle, operation ≠ .sign handle)
    {id : String} (hid : id ∈ signingIds) : resource.path ≠ zone.pathOf id := by
  have hother : ∀ {other : String}, other ∉ signingIds → zone.pathOf other ≠ zone.pathOf id := by
    intro other hnone hpath
    exact hnone (pathOf_inj.mp hpath ▸ hid)
  have hhyphen : ∀ id ∈ signingIds, '-' ∉ id.toList := by decide
  have huser : ∀ text, "IAM-" ++ text ∉ signingIds := by
    intro text hmem
    have hnone := hhyphen _ hmem
    simp [String.toList_append] at hnone
  cases h with
  | record _ _ record =>
    rw [path_recordResource]
    exact mt pathOf_inj.mp (Record.path_ne_of_hyphen_notMem (hhyphen id hid))
  | livednsKey | hostedZoneKey | hostedZoneSigning => exact absurd rfl (hsign _)
  | user _ name => exact hother (huser name)
  | userPolicy _ name =>
    have hpolicy : "IAM-" ++ name ++ "-policy" ∉ signingIds := by
      rw [String.append_assoc]
      exact huser _
    exact hother hpolicy
  | lookup => exact hother (by decide)
  | registeredNameservers => exact hother (by decide)
  | registeredKey => exact hother (by decide)

/-! ### One operation -/

def Operation.Signs : Operation → Zone → Prop
  | .sign handle, zone => zone.key = none ∧ Step.Accepts (Zone.sign handle) zone
  | _, _ => False

theorem key_next_of_other (hsign : ∀ handle, operation ≠ .sign handle) (zone : Zone) :
    (operation.next zone).key = zone.key :=
  preservesKey_step hsign zone

theorem key_next_of_signed (hkey : zone.key = some key) (operation : Operation) :
    (operation.next zone).key = some key := by
  by_cases hsign : ∃ handle, operation = .sign handle
  · obtain ⟨handle, rfl⟩ := hsign
    have hnext : (Operation.sign handle).next zone = zone := Step.after_of_ok (sign_of_signed hkey handle)
    rw [hnext, hkey]
  · rw [key_next_of_other (not_exists.mp hsign), hkey]

/-- Signing leaves a zone as it is, or it gives a key to a zone that had none. -/
theorem next_sign_cases (h : zone.Signable) (handle : Option SigningKeyHandle) :
    ((Operation.sign handle).next zone = zone ∧ ¬ (Operation.sign handle).Signs zone) ∨
      ((Operation.sign handle).Signs zone ∧ ((Operation.sign handle).next zone).key ≠ none) := by
  cases hkey : zone.key with
  | some key =>
    refine Or.inl ⟨Step.after_of_ok (sign_of_signed hkey handle), fun hsigns => ?_⟩
    have hnone := hsigns.1
    rw [hkey] at hnone
    cases hnone
  | none =>
    by_cases hhandle : zone.backend = .route53 → handle.isSome
    · obtain ⟨added, key, set, -, hrun, -⟩ := sign_of_signable h hkey hhandle
      have hnext : (Operation.sign handle).next zone = _ := Step.after_of_ok hrun
      refine Or.inr ⟨⟨hkey, _, _, hrun⟩, ?_⟩
      rw [hnext]
      exact Option.some_ne_none key
    · obtain ⟨hbackend, hmissing⟩ := Classical.not_imp.mp hhandle
      obtain rfl : handle = none := by simpa using hmissing
      have hrun := sign_of_missing hkey hbackend
      exact Or.inl ⟨Step.after_of_error hrun, fun hsigns => Step.not_accepts_of_error hrun hsigns.2⟩

theorem key_next_eq_none_iff (h : zone.Signable) (operation : Operation) :
    (operation.next zone).key = none ↔ zone.key = none ∧ ¬ operation.Signs zone := by
  by_cases hsign : ∃ handle, operation = .sign handle
  · obtain ⟨handle, rfl⟩ := hsign
    rcases next_sign_cases h handle with ⟨hnext, hsigns⟩ | ⟨hsigns, hkey⟩
    · rw [hnext, and_iff_left hsigns]
    · exact iff_of_false hkey fun hnone => hnone.2 hsigns
  · have hother := not_exists.mp hsign
    have hsigns : ¬ operation.Signs zone := by
      cases operation with
      | sign handle => exact absurd rfl (hother handle)
      | call | allowUser | register | nameservers | summary | take => exact id
    rw [key_next_of_other hother, and_iff_left hsigns]

theorem signable_next (hzone : zone.Consistent) (h : zone.Signable) (operation : Operation) :
    (operation.next zone).Signable := by
  intro hnone id hid
  by_cases hsign : ∃ handle, operation = .sign handle
  · obtain ⟨handle, rfl⟩ := hsign
    rcases next_sign_cases h handle with ⟨hnext, -⟩ | ⟨-, hkey⟩
    · rw [hnext] at hnone ⊢
      exact h hnone id hid
    · exact absurd hnone hkey
  · rw [key_next_of_other (not_exists.mp hsign)] at hnone
    rw [(change_next hzone operation).pathOf_eq]
    intro hmem
    obtain ⟨resource, hresource, hpath⟩ := List.mem_map.mp hmem
    rcases mem_resources_next hzone operation hresource with ⟨-, hbefore⟩ | hadds
    · exact h hnone id hid (List.mem_map.mpr ⟨resource, hbefore, hpath⟩)
    · exact hadds.path_ne_signing (not_exists.mp hsign) hid hpath

theorem Operation.Adds.registeredKey_of_kind (h : operation.Adds zone resource) (hkind : resource.kind = .registeredKey) :
    ∃ registrar dnssec key, operation = .register registrar dnssec ∧ zone.key = some key ∧
      resource = zone.registeredKey registrar key := by
  cases h with
  | record _ _ record =>
    have hrecord := isRecord_recordResource record zone
    rw [hkind] at hrecord
    cases hrecord
  | livednsKey | hostedZoneKey | hostedZoneSigning | user | userPolicy | lookup | registeredNameservers => cases hkind
  | registeredKey _ registrar dnssec key _ hkey => exact ⟨registrar, dnssec, key, rfl, hkey, rfl⟩

/-! ### Histories -/

theorem key_run_of_signed (hkey : zone.key = some key) (operations : List Operation) :
    (zone.run operations).key = some key := by
  induction operations using List.reverseRecOn with
  | nil => exact hkey
  | append_singleton operations operation ih =>
    rw [run_concat]
    exact key_next_of_signed ih operation

section Opened

variable (hopen : Zone.open backend origin provider = .ok opened)

include hopen

theorem signable_run (operations : List Operation) : (opened.run operations).Signable := by
  induction operations using List.reverseRecOn with
  | nil =>
    intro _ id hid
    refine notMem_paths_open hopen ?_
    rintro rfl
    revert hid
    decide
  | append_singleton operations operation ih =>
    rw [run_concat]
    exact signable_next (consistent_run (consistent_open hopen) operations) ih operation

theorem key_run_eq_none_iff (operations : List Operation) :
    (opened.run operations).key = none ↔ ¬ Ever Operation.Signs opened operations := by
  induction operations using List.reverseRecOn with
  | nil =>
    obtain ⟨-, -, -, -, hkey, -⟩ := open_eq_ok hopen
    exact iff_of_true hkey not_ever_nil
  | append_singleton operations operation ih =>
    rw [run_concat, key_next_eq_none_iff (signable_run hopen operations), ih, ever_concat, not_or]

/-- A key that a zone has at the registrar was published by a registration of the signed
zone, and nothing was taken since. -/
theorem exists_register_of_mem (operations : List Operation)
    (hresource : resource ∈ (opened.run operations).resources.toList) (hkind : resource.kind = .registeredKey) :
    ∃ before registrar dnssec later key, operations = before ++ .register registrar dnssec :: later ∧
      .take ∉ later ∧ (opened.run before).key = some key ∧
      resource = (opened.run before).registeredKey registrar key := by
  rcases mem_resources_run (consistent_open hopen) hresource with
    ⟨-, hfirst⟩ | ⟨before, operation, later, hsplit, htake, hadds⟩
  · obtain ⟨-, -, -, -, -, hresources⟩ := open_eq_ok hopen
    rw [hresources] at hfirst
    split at hfirst
    · rw [List.mem_singleton.mp hfirst] at hkind
      cases hkind
    · cases hfirst
  · obtain ⟨registrar, dnssec, key, rfl, hkey, hsame⟩ := hadds.registeredKey_of_kind hkind
    exact ⟨before, registrar, dnssec, later, key, hsplit, htake, hkey, hsame⟩

end Opened

/-! ### Results -/

/-- What a zone declares when it is signed, a key and on Route53 a switch that waits for it,
and the key that the zone then has, which refers to what it declares. -/
structure SignedBy (backend : Backend) (origin : Origin) (ksk : Resource) (added : List Resource) (key : SigningKey) :
    Prop where
  kind : ksk.kind = match backend with
    | .livedns => .livednsKey
    | .route53 => .hostedZoneKey
  path : ksk.path = backend.pathStart ++ "-" ++ origin.name ++ "/KSK"
  added : match backend with
    | .livedns => added = [ksk]
    | .route53 => ∃ switch : Resource, added = [ksk, switch] ∧ switch.kind = .hostedZoneSigning ∧
      switch.path = "R53-" ++ origin.name ++ "/DNSSEC" ∧ switch.dependsOn = [ksk.address]
  publicKey : key.publicKey = AttrRef.interpolate ⟨ksk.address, "public_key"⟩
  algorithm : key.algorithm = AttrRef.interpolate ⟨ksk.address, match backend with
    | .livedns => "algorithm"
    | .route53 => "signing_algorithm_type"⟩
  dsRecord : key.dsRecord = AttrRef.interpolate ⟨ksk.address, match backend with
    | .livedns => "ds"
    | .route53 => "ds_record"⟩

theorem Signs.signedBy {added : List Resource} (h : zone.Signs handle added key) :
    ∃ ksk, SignedBy zone.backend zone.origin ksk added key := by
  have hpath : ∀ id, zone.pathOf id = zone.backend.pathStart ++ "-" ++ zone.origin.name ++ ("/" ++ id) :=
    fun id => String.append_assoc ..
  cases h with
  | livedns _ hbackend =>
    rw [hbackend] at hpath ⊢
    exact ⟨zone.livednsKey, rfl, hpath "KSK", rfl, rfl, rfl, rfl⟩
  | route53 handle hbackend =>
    rw [hbackend] at hpath ⊢
    exact ⟨zone.hostedZoneKey handle, rfl, hpath "KSK", ⟨_, rfl, rfl, hpath "DNSSEC", rfl⟩, rfl, rfl, rfl⟩

/-- A zone that was never signed can be signed, whatever was done to it since it was opened,
and it has that key from then on. A key that it has at the registrar was published after the
zone was signed, and is the zone's own. -/
theorem signing_of_history (hopen : Zone.open backend origin provider = .ok opened) (operations : List Operation) :
    let zone := opened.run operations
    (zone.key = none ↔ ¬ Ever Operation.Signs opened operations) ∧
    (zone.key = none → ∀ handle, (backend = .route53 → handle.isSome) →
      ∃ ksk added key set,
        sign handle zone = .ok () { zone with resources := set, key := some key } ∧
        set.toList = zone.resources.toList ++ added ∧
        zone.Signs handle added key ∧ SignedBy backend origin ksk added key ∧
        ∀ later, (opened.run (operations ++ .sign handle :: later)).key = some key) ∧
    (∀ resource ∈ zone.resources.toList, resource.kind = .registeredKey →
      ∃ before registrar dnssec later key, operations = before ++ .register registrar dnssec :: later ∧
        .take ∉ later ∧ Ever Operation.Signs opened before ∧ zone.key = some key ∧
        resource.text? "algorithm" = some key.algorithm ∧ resource.text? "public_key" = some key.publicKey) := by
  intro zone
  refine ⟨key_run_eq_none_iff hopen operations, ?_, ?_⟩
  · intro hnone handle hhandle
    rw [← backend_run hopen operations] at hhandle
    obtain ⟨added, key, set, hsigns, hrun, hset⟩ := sign_of_signable (signable_run hopen operations) hnone hhandle
    obtain ⟨ksk, hsigned⟩ := hsigns.signedBy
    rw [backend_run hopen operations, origin_run hopen operations] at hsigned
    refine ⟨ksk, added, key, set, hrun, hset, hsigns, hsigned, fun later => ?_⟩
    have hnext : (Operation.sign handle).next zone = _ := Step.after_of_ok hrun
    rw [run_append, run_cons, hnext]
    exact key_run_of_signed rfl later
  · intro resource hresource hkind
    obtain ⟨before, registrar, dnssec, later, key, rfl, htake, hkey, rfl⟩ :=
      exists_register_of_mem hopen operations hresource hkind
    have hsigned : Ever Operation.Signs opened before := by
      by_contra hnever
      rw [(key_run_eq_none_iff hopen before).mpr hnever] at hkey
      cases hkey
    refine ⟨before, registrar, dnssec, later, key, rfl, htake, hsigned, ?_, ?_, ?_⟩
    · change (opened.run (before ++ _)).key = some key
      rw [run_append]
      exact key_run_of_signed hkey _
    · simp [registeredKey, registrarResource]
    · simp [registeredKey]

/-- A zone with a user is signed after its resources were taken, and registered with its key. -/
def signedHistory : List Operation :=
  [.allowUser "ACME", .take] ++ .sign (some ⟨"arn:aws:kms:us-east-1:1:key/1"⟩) :: [.register ⟨.gandi, "vb", []⟩ true]

/-- The zone has the key and publishes it. -/
theorem signing_of_history_luffy :
    ∃ opened key, Zone.open .route53 ⟨"luffy.cx", { acmeRoot := "luffy.cx" }⟩ ⟨.aws, "main", []⟩ = .ok opened ∧
      (opened.run signedHistory).key = some key ∧
      ∃ resource ∈ (opened.run signedHistory).resources.toList, resource.kind = .registeredKey ∧
        resource.text? "public_key" = some key.publicKey := by
  obtain ⟨opened, hopen⟩ : ∃ opened,
      Zone.open .route53 ⟨"luffy.cx", { acmeRoot := "luffy.cx" }⟩ ⟨.aws, "main", []⟩ = .ok opened :=
    exists_open (by decide +kernel) rfl
  have hunsigned : (opened.run [.allowUser "ACME", .take]).key = none := by
    obtain ⟨-, -, -, -, hnone, -⟩ := open_eq_ok hopen
    have htake : ∀ zone : Zone, (Operation.take.next zone).key = zone.key := key_next_of_other nofun
    have hallow : ∀ zone : Zone, ((Operation.allowUser "ACME").next zone).key = zone.key := key_next_of_other nofun
    rw [run_cons, run_cons, run_nil, htake, hallow, hnone]
  obtain ⟨-, hsign, -⟩ := signing_of_history hopen [.allowUser "ACME", .take]
  obtain ⟨ksk, added, key, set, -, -, -, -, hlater⟩ :=
    hsign hunsigned (some ⟨"arn:aws:kms:us-east-1:1:key/1"⟩) fun _ => rfl
  have hkey : (opened.run signedHistory).key = some key := hlater [.register ⟨.gandi, "vb", []⟩ true]
  have heval : (Zone.open .route53 ⟨"luffy.cx", { acmeRoot := "luffy.cx" }⟩ ⟨.aws, "main", []⟩).toOption.map
      (fun opened => (opened.run signedHistory).resources.toList.any (·.kind = .registeredKey)) = some true := by
    decide +kernel
  rw [hopen] at heval
  obtain ⟨resource, hresource, hkind⟩ := List.any_eq_true.mp (Option.some.inj heval)
  obtain ⟨-, -, hpublished⟩ := signing_of_history hopen signedHistory
  obtain ⟨before, registrar, dnssec, later, found, -, -, -, hfound, -, hpublic⟩ :=
    hpublished resource hresource (of_decide_eq_true hkind)
  obtain rfl : found = key := Option.some.inj (hfound.symm.trans hkey)
  exact ⟨opened, found, hopen, hfound, resource, hresource, of_decide_eq_true hkind, hpublic⟩

end ZoneGraph.Zone
