import ZoneGraph.Zone

/-! What a zone shows to its parent and to its registrar: nameservers, a signing key
and the two resources of a registration. A LiveDNS zone looks its nameservers up once;
a zone that was signed stays signed with the same key. -/
namespace ZoneGraph.Zone

/-! ### Nameservers -/

/-- The data source that looks up the nameservers of a LiveDNS zone. -/
def lookupResource (zone : Zone) : Resource :=
  (zone.resource .livednsLookup "LiveDNSNS").setText "name" zone.name

/-- The nameservers of the zone, looked up when LiveDNS is first asked for them. -/
def nameservers : Step Zone Nameservers := fun zone =>
  match zone.backend, zone.lookup with
  | .route53, _ => .ok (.reference (zone.hostedZone.reference "name_servers")) zone
  | .livedns, some ref => .ok (.reference ref) zone
  | .livedns, none =>
    match emit zone.lookupResource zone with
    | .error fault zone => .error fault zone
    | .ok _ zone =>
      let ref := zone.lookupResource.reference "nameservers"
      .ok (.reference ref) { zone with lookup := some ref }

/-! ### Signing -/

/-- The attributes of a signing key that are known once the key exists. -/
def keyOf (key : Resource) (algorithm dsRecord : String) : SigningKey where
  publicKey := (key.reference "public_key").interpolate
  algorithm := (key.reference algorithm).interpolate
  dsRecord := (key.reference dsRecord).interpolate

/-- The key of a LiveDNS zone, which LiveDNS makes itself. -/
def livednsKey (zone : Zone) : Resource :=
  (zone.resource .livednsKey "KSK").setText "domain" zone.name

/-- The name of a Route53 key: the letters and digits of the zone's name. -/
def keyName (zone : Zone) : String := String.ofList (zone.name.toList.filter Char.isAlphanum)

/-- The key of a Route53 zone, made from a key kept outside. -/
def hostedZoneKey (handle : SigningKeyHandle) (zone : Zone) : Resource :=
  (zone.resource .hostedZoneKey "KSK")
    |>.setText "hosted_zone_id" zone.zoneId.interpolate
    |>.setText "key_management_service_arn" handle.keyArn
    |>.setText "name" zone.keyName
    |>.setText "status" "ACTIVE"

/-- The switch that turns signing on once the key is there. -/
def hostedZoneSigning (key : Resource) (zone : Zone) : Resource :=
  (zone.resource .hostedZoneSigning "DNSSEC")
    |>.setText "hosted_zone_id" zone.zoneId.interpolate
    |>.setText "signing_status" "SIGNING"
    |>.waitFor key

def keepKey (key : SigningKey) : Step Zone Unit := modify fun zone => { zone with key := some key }

def signLivedns : Step Zone Unit := do
  let key := (← get).livednsKey
  emit key
  keepKey (keyOf key "algorithm" "ds")

def signRoute53 (handle : SigningKeyHandle) : Step Zone Unit := do
  let zone ← get
  let key := zone.hostedZoneKey handle
  emit key
  emit (zone.hostedZoneSigning key)
  keepKey (keyOf key "signing_algorithm_type" "ds_record")

/-- Signs a zone that is not signed yet. LiveDNS makes its own key; Route53 needs a
handle of one kept outside. -/
def sign (handle : Option SigningKeyHandle) : Step Zone Unit := fun zone =>
  match zone.key, zone.backend, handle with
  | some _, _, _ => .ok () zone
  | none, .livedns, _ => signLivedns zone
  | none, .route53, some handle => signRoute53 handle zone
  | none, .route53, none => .error (.deployment (.needsSigningKey zone.name)) zone

/-! ### Registration -/

/-- A resource of the zone that the registrar's provider manages. -/
def registrarResource (kind : ResourceKind) (id : String) (registrar : Provider) (zone : Zone) :
    Resource :=
  { zone.resource kind id with provider := registrar.reference } |>.setText "domain" zone.name

def registeredNameservers (registrar : Provider) (servers : Nameservers) (zone : Zone) : Resource :=
  (zone.registrarResource .registeredNameservers "NS" registrar).set "nameservers" servers.toData

def registeredKey (registrar : Provider) (key : SigningKey) (zone : Zone) : Resource :=
  (zone.registrarResource .registeredKey "NSSEC" registrar)
    |>.setText "algorithm" key.algorithm
    |>.setText "public_key" key.publicKey
    |>.setText "type" "ksk"

/-- The key to publish, if one is asked for. -/
def keyFor (dnssec : Bool) (zone : Zone) : Except Fault (Option SigningKey) :=
  match dnssec, zone.key with
  | false, _ => .ok none
  | true, some key => .ok (some key)
  | true, none => .error (.notSigned zone.name)

/-- Registers the zone's nameservers and, if asked, its key. The key and the registrar
are checked before anything is declared. -/
def register (registrar : Provider) (dnssec : Bool) : Step Zone Unit := do
  let zone ← get
  let key ← Step.lift (zone.keyFor dnssec)
  Step.lift (registrar.expect .gandi)
  let servers ← nameservers
  emit (zone.registeredNameservers registrar servers)
  match key with
  | some key => emit (zone.registeredKey registrar key)
  | none => pure ()

def summary : Step Zone ZoneSummary := do
  let nameservers ← nameservers
  let zone ← get
  pure { zone := zone.name, nameservers, dsRecord := zone.key.map SigningKey.dsRecord }

end ZoneGraph.Zone
