import ZoneGraph.Proofs.Deployment.Alone

/-! The zones of a deployment file, each built by the requests that the file makes of it.
The requests are written out one after the other as operations on that one zone: it is
opened, signed and registered, then it has its web names, its mail and its servers, then
the records and the delegations of its group. No list of calls and no group of zones
comes in. A zone built that way is the zone built by itself. -/
namespace ZoneGraph

/-! ### Requests of a group -/

namespace RecordSpec

/-- Declares a record with the addresses of one family, if there are any. -/
def requestFamily (type : RecordType) (addresses : List String) (spec : RecordSpec) : Step Zone Unit :=
  if addresses = [] then pure () else Zone.declare ⟨spec.name, type, .list addresses, { ttl := spec.ttl }⟩

/-- Declares a record of the file: one with its type and values, or the addresses of the
servers with its tag. It must have a type or a tag, and not both. -/
def request (servers : List Server) (spec : RecordSpec) : Step Zone Unit :=
  match spec.type, spec.serversTag with
  | some type, none => Zone.declare ⟨spec.name, type, spec.values, { ttl := spec.ttl }⟩
  | none, some tag => do
    let tagged := servers.filter fun server => tag ∈ server.tags
    spec.requestFamily .a (tagged.filterMap Server.ipv4)
    spec.requestFamily .aaaa (tagged.filterMap Server.ipv6)
  | some _, some _ | none, none => throw (.deployment (.ambiguousRecord spec.name))

end RecordSpec

/-- Delegates to a zone that is known from an earlier group: its nameservers, and its key
if it was signed. -/
def DelegationSpec.request (known : Keyed ZoneSummary) (spec : DelegationSpec) : Step Zone Unit :=
  match Keyed.find? spec.zone known with
  | none => throw (.deployment (.undeclaredChild spec.label spec.zone))
  | some child => do
    Zone.declare ⟨spec.label, .ns, child.nameservers.fqdnValues, {}⟩
    Step.each (fun ds => Zone.declare ⟨spec.label, .ds, .single ds, {}⟩) child.dsRecord.toList

/-- Everything a group asks of a zone, each call made on the zone itself. -/
def GroupSpec.requests (servers : List Server) (known : Keyed ZoneSummary) (group : GroupSpec) : Step Zone Unit := do
  Step.each (fun name => (Call.webHosting name servers {}).perform) group.www
  Step.each (fun subdomains => (Call.mailHosting subdomains).perform) group.mail.toList
  (if group.mailServices then Call.mailServices.perform else pure ())
  (if group.servers then (Call.serverNames servers {}).perform else pure ())
  Step.each (RecordSpec.request servers) group.records
  Step.each (DelegationSpec.request known) group.delegations

/-! ### Requests of a zone -/

namespace ZoneSpec

variable (file : DeploymentFile) (spec : ZoneSpec)

/-- The zone opened with its provider. Signing keys, users and a known identifier are for
Route53. -/
def opened : Except Fault Zone := do
  let provider ← file.provider spec.provider
  if spec.backend = .livedns ∧ (spec.signingKey ≠ none ∨ spec.allowUsers ≠ [] ∨ spec.outputZoneId ≠ none) then
    throw (.deployment (.needsHostedZone spec.name))
  else Zone.open spec.backend ⟨spec.name, file.defaults⟩ provider

/-- Signs the zone if it is to be signed, on Route53 with a key of the file. -/
def requestSigning : Step Zone Unit :=
  match spec.sign, spec.backend, spec.signingKey with
  | false, _, _ => pure ()
  | true, .livedns, _ => Zone.sign none
  | true, .route53, none => throw (.deployment (.needsSigningKey spec.name))
  | true, .route53, some name =>
    if name ∈ file.signingKeys.keys then Zone.sign (some (DeploymentFile.keyHandle name))
    else throw (.deployment (.unknownSigningKey spec.name name))

def requestRegistration : Step Zone Unit :=
  match spec.registrar with
  | none => pure ()
  | some registrar => do
    let provider ← Step.lift (file.provider registrar.provider)
    Zone.register provider registrar.dnssec

/-- Everything the file asks of the zone once it is open. -/
def requests (servers : List Server) (group : GroupSpec) (known : Keyed ZoneSummary) (lookUp : Bool) :
    Step Zone Unit := do
  spec.requestSigning file
  Step.each Zone.allowUser spec.allowUsers
  spec.requestRegistration file
  group.requests servers known
  (if lookUp then discard Zone.nameservers else pure ())

/-- The zone built by the requests made of it. -/
def direct (servers : List Server) (group : GroupSpec) (known : Keyed ZoneSummary) (lookUp : Bool) :
    Except Fault Zone := do
  let zone ← spec.opened file
  (spec.requests file servers group known lookUp).final zone

end ZoneSpec

namespace DeploymentFile

variable (file : DeploymentFile) (servers : List Server)

/-- The zones of a group, each built by its requests. The nameservers of a zone are looked
up if some group delegates to its name and no zone before has that name. -/
def directGroup (group : GroupSpec) (known : Keyed ZoneSummary) :
    List ZoneSpec → List ZoneSpec → List (Except Fault Zone)
  | _, [] => []
  | before, spec :: rest =>
    let lookUp := decide ((∃ group ∈ file.groups, ∃ delegation ∈ group.delegations, delegation.zone = spec.name) ∧
      ∀ other ∈ before, other.name ≠ spec.name)
    spec.direct file servers group known lookUp :: directGroup group known (before ++ [spec]) rest

/-- The zones of some groups, each built by its requests. A group knows the zones of the
groups before it. -/
def directAfter : List ZoneSpec → List (Except Fault Zone) → List GroupSpec → List (Except Fault Zone)
  | _, _, [] => []
  | before, earlier, group :: rest =>
    let runs := file.directGroup servers group (summariesOf earlier) before group.zones
    runs ++ directAfter (before ++ group.zones) (earlier ++ runs) rest

/-- Every zone of the file built by its requests, in the order of the file. -/
def directRuns : List (Except Fault Zone) := file.directAfter servers [] [] file.groups

end DeploymentFile

/-! ### Requests and calls -/

namespace Call

theorem perform_record (record : Record) : (Call.record record).perform = Zone.declare record := by
  funext zone
  change Step.each Zone.declare [record] zone = _
  rw [Step.each_singleton]

end Call

theorem RecordSpec.each_ask_calls (servers : List Server) (spec : RecordSpec) :
    Step.each Zone.ask (spec.calls servers) = spec.request servers := by
  have hfamily (type : RecordType) (addresses : List String) :
      Step.each Zone.ask ((Bundle.family spec.name type addresses { ttl := spec.ttl }).map fun record =>
        .ok (.record record)) = spec.requestFamily type addresses := by
    unfold Bundle.family RecordSpec.requestFamily
    cases addresses with
    | nil => rfl
    | cons address rest => exact (Step.each_singleton _).trans (Call.perform_record _)
  unfold RecordSpec.calls RecordSpec.request
  cases htype : spec.type with
  | none =>
    cases htag : spec.serversTag with
    | none => exact Step.each_singleton _
    | some tag =>
      simp only [Call.addresses, Bundle.addresses, List.map_append, List.map_map, Step.each_append]
      exact congrArg₂ (fun first second => first >>= fun _ => second) (hfamily .a _) (hfamily .aaaa _)
  | some type =>
    cases htag : spec.serversTag with
    | none => exact (Step.each_singleton _).trans (Call.perform_record _)
    | some tag => exact Step.each_singleton _

theorem DelegationSpec.each_ask_calls (known : Keyed ZoneSummary) (spec : DelegationSpec) :
    Step.each Zone.ask (spec.calls known) = spec.request known := by
  unfold DelegationSpec.calls DelegationSpec.request
  cases Keyed.find? spec.zone known with
  | none => exact Step.each_singleton _
  | some child =>
    change Step.each Zone.ask ((Call.delegate spec.label child).map .ok) = _
    rw [Call.delegate, List.map_cons, Step.each_cons]
    refine congrArg₂ (fun first second => first >>= fun _ => second) (Call.perform_record _) ?_
    rw [Option.toList_map, List.map_map, Step.each_map]
    exact congrArg (Step.each · child.dsRecord.toList) (funext fun ds => Call.perform_record _)

/-- The calls of a group are its requests. -/
theorem GroupSpec.each_ask_calls (servers : List Server) (known : Keyed ZoneSummary) (group : GroupSpec) :
    Step.each Zone.ask (group.calls servers known) = group.requests servers known := by
  have hperform : (fun call => Zone.ask (.ok call)) = Call.perform := rfl
  have hif (wanted : Bool) (call : Call) :
      Step.each Call.perform (if wanted then [call] else []) =
        (if wanted then call.perform else pure () : Step Zone Unit) := by
    cases wanted with
    | false => rfl
    | true => exact Step.each_singleton _
  have hrecords : (fun spec => Step.each Zone.ask (RecordSpec.calls servers spec)) = RecordSpec.request servers :=
    funext fun spec => spec.each_ask_calls servers
  have hdelegations : (fun spec => Step.each Zone.ask (DelegationSpec.calls known spec)) =
      DelegationSpec.request known := funext fun spec => spec.each_ask_calls known
  rw [GroupSpec.calls, GroupSpec.bundles, GroupSpec.requests]
  simp only [Step.each_append, Step.each_map, Step.each_flatMap, hperform, hif, hrecords, hdelegations, bind_assoc]

/-! ### Zones built both ways -/

namespace ZoneSpec

variable {file : DeploymentFile} {spec : ZoneSpec}

theorem needsHostedZone_iff (spec : ZoneSpec) :
    spec.needsHostedZone = true ↔ spec.signingKey ≠ none ∨ spec.allowUsers ≠ [] ∨ spec.outputZoneId ≠ none := by
  simp [needsHostedZone, Option.isSome_iff_ne_none, or_assoc]

theorem opened_eq (file : DeploymentFile) (spec : ZoneSpec) :
    spec.opened file = file.provider spec.provider >>= fun provider => spec.openZone file.defaults provider := by
  unfold opened openZone
  simp only [needsHostedZone_iff]
  rfl

theorem find?_keyHandles (file : DeploymentFile) (name : String) :
    Keyed.find? name file.keyHandles =
      if name ∈ file.signingKeys.keys then some (DeploymentFile.keyHandle name) else none := by
  unfold DeploymentFile.keyHandles Keyed.keys
  induction file.signingKeys with
  | nil => rfl
  | cons entry rest ih =>
    rw [List.map_cons, Keyed.find?]
    by_cases hname : entry.1 = name
    · simp [hname]
    · rw [if_neg hname, ih]
      exact if_congr (by rw [List.map_cons, List.mem_cons, or_iff_right (Ne.symm hname)]) rfl rfl

theorem signZone_eq (file : DeploymentFile) (spec : ZoneSpec) :
    spec.signZone file.keyHandles = spec.requestSigning file := by
  unfold signZone requestSigning signingHandle
  cases spec.sign with
  | false => rfl
  | true =>
    cases spec.backend with
    | livedns => rfl
    | route53 =>
      cases spec.signingKey with
      | none => rfl
      | some name =>
        simp only [find?_keyHandles]
        by_cases hname : name ∈ file.signingKeys.keys
        · simp only [if_pos hname]
          rfl
        · simp only [if_neg hname]
          rfl

theorem registered_eq (file : DeploymentFile) (spec : ZoneSpec) :
    spec.registered file = (spec.requestRegistration file).final := by
  funext zone
  unfold registered requestRegistration
  cases spec.registrar with
  | none => rfl
  | some registrar =>
    simp only
    cases file.provider registrar.provider <;> rfl

/-- A zone built by itself is built by the requests made of it. -/
theorem alone_eq_direct (file : DeploymentFile) (servers : List Server) (group : GroupSpec)
    (known : Keyed ZoneSummary) (lookUp : Bool) (spec : ZoneSpec) :
    spec.alone file (group.calls servers known) lookUp = spec.direct file servers group known lookUp := by
  have hlookUp : (fun zone : Zone => if lookUp then Zone.nameservers.final zone else pure zone) =
      (if lookUp then discard Zone.nameservers else pure () : Step Zone Unit).final := by
    cases lookUp with
    | false => rfl
    | true =>
      funext zone
      change Step.final Zone.nameservers zone = Step.final (EStateM.map (fun _ => ()) Zone.nameservers) zone
      unfold Step.final EStateM.map
      cases Zone.nameservers zone <;> rfl
  rw [alone, prepared, direct, opened_eq, requests]
  simp only [Step.final_bind, bind_assoc, signZone_eq, registered_eq, GroupSpec.each_ask_calls, hlookUp]

theorem isFirstDelegated_eq (file : DeploymentFile) (before : List ZoneSpec) (spec : ZoneSpec) :
    spec.isFirstDelegated file before =
      decide ((∃ group ∈ file.groups, ∃ delegation ∈ group.delegations, delegation.zone = spec.name) ∧
        ∀ other ∈ before, other.name ≠ spec.name) := by
  simp only [isFirstDelegated, DeploymentFile.delegated, List.mem_flatMap, List.mem_map, not_exists, not_and, ne_eq]

end ZoneSpec

namespace DeploymentFile

variable {file : DeploymentFile} {servers : List Server}

theorem groupRuns_eq_direct (group : GroupSpec) (known : Keyed ZoneSummary) (specs before : List ZoneSpec) :
    file.groupRuns (group.calls servers known) before specs = file.directGroup servers group known before specs := by
  induction specs generalizing before with
  | nil => rfl
  | cons spec rest ih => rw [groupRuns, directGroup, ih, ZoneSpec.alone_eq_direct, ZoneSpec.isFirstDelegated_eq]

theorem runsAfter_eq_direct (groups : List GroupSpec) (before : List ZoneSpec) (earlier : List (Except Fault Zone)) :
    file.runsAfter servers before earlier groups = file.directAfter servers before earlier groups := by
  induction groups generalizing before earlier with
  | nil => rfl
  | cons group rest ih => rw [runsAfter, directAfter, groupRuns_eq_direct, ih]

/-- Building every zone by itself is building it by the requests made of it. -/
theorem runs_eq_directRuns (file : DeploymentFile) (servers : List Server) :
    file.runs servers = file.directRuns servers := runsAfter_eq_direct file.groups [] []

end DeploymentFile

end ZoneGraph
