import ZoneGraph.Deployment.Group
import ZoneGraph.Stack
import ZoneGraph.Zone.Access
import ZoneGraph.Zone.Registration

/-! Building a deployment. Each group opens its zones, signs and registers them, makes
its calls on all of them and hands their resources to the stack. A zone that a later
group delegates to leaves a summary. -/
namespace ZoneGraph

namespace Step

/-- The state after an operation on a state of its own, within an operation on another. -/
def run {σ τ α : Type} (step : Step σ α) (state : σ) : Step τ (α × σ) := fun outer =>
  match step state with
  | .ok value state => .ok (value, state) outer
  | .error fault _ => .error fault outer

/-- An operation on each item, keeping the answers, cut at the first one refused. -/
def collect {σ ι α : Type} (step : ι → Step σ α) : List ι → Step σ (List α)
  | [] => pure []
  | item :: rest => do
    let value ← step item
    let values ← collect step rest
    pure (value :: values)

end Step

/-! ### Zones -/

namespace ZoneSpec

/-- Whether something is asked that only Route53 has. -/
def needsHostedZone (spec : ZoneSpec) : Bool :=
  spec.signingKey.isSome || !spec.allowUsers.isEmpty || spec.outputZoneId.isSome

def signingHandle (keys : Keyed SigningKeyHandle) (spec : ZoneSpec) : Except Fault SigningKeyHandle :=
  match spec.signingKey with
  | none => .error (.deployment (.needsSigningKey spec.name))
  | some name =>
    match Keyed.find? name keys with
    | some handle => .ok handle
    | none => .error (.deployment (.unknownSigningKey spec.name name))

/-- Opens a zone of a deployment, refusing what its backend does not have. -/
def openZone (defaults : ZoneDefaults) (provider : Provider) (spec : ZoneSpec) : Except Fault Zone :=
  if spec.backend = .livedns ∧ spec.needsHostedZone then
    .error (.deployment (.needsHostedZone spec.name))
  else Zone.open spec.backend ⟨spec.name, defaults⟩ provider

def signZone (keys : Keyed SigningKeyHandle) (spec : ZoneSpec) : Step Zone Unit :=
  if spec.sign then
    match spec.backend with
    | .livedns => Zone.sign none
    | .route53 => do
      let handle ← Step.lift (spec.signingHandle keys)
      Zone.sign (some handle)
  else pure ()

/-- Declares the output of a zone's identifier if it is to be known. -/
def outputZone (zone : Zone) (spec : ZoneSpec) : Step Stack Unit :=
  match spec.outputZoneId with
  | some name => Stack.output name (.text zone.zoneId.interpolate)
  | none => pure ()

/-- The registrar's provider and whether the key goes there, if the zone is registered. -/
def registrarOf (spec : ZoneSpec) : Step Stack (Option (Provider × Bool)) := do
  match spec.registrar with
  | some registrar =>
    let provider ← Step.lift ((← get).provider registrar.provider)
    pure (some (provider, registrar.dnssec))
  | none => pure none

/-- Opens a zone of a deployment and does everything with it that concerns no other: it is
signed, users are let in, its identifier is put out, and it is registered. -/
def build (defaults : ZoneDefaults) (keys : Keyed SigningKeyHandle) (spec : ZoneSpec) : Step Stack Zone := do
  let provider ← Step.lift ((← get).provider spec.provider)
  let zone ← Step.lift (spec.openZone defaults provider)
  let (_, zone) ← (spec.signZone keys).run zone
  let (_, zone) ← (Step.each Zone.allowUser spec.allowUsers).run zone
  spec.outputZone zone
  match ← spec.registrarOf with
  | some (registrar, dnssec) =>
    let (_, zone) ← (Zone.register registrar dnssec).run zone
    pure zone
  | none => pure zone

end ZoneSpec

/-! ### Groups -/

/-- A stack, and what is known of the zones that are delegated to. -/
structure Building where
  stack : Stack
  summaries : Keyed ZoneSummary := []

namespace Building

def onStack {α : Type} (step : Step Stack α) : Step Building α :=
  step.within Building.stack fun stack building => { building with stack }

def callZones (calls : List (Except Fault Call)) (zones : List Zone) : Step Building (List Zone) := do
  let group ← Step.lift (FanOut.ofList (zones.map .single))
  let (_, group) ← (Step.each FanOut.ask calls).run group
  pure group.zones

/-- Takes the summary of a zone that is delegated to, the first time its name occurs, and
hands its resources to the stack. -/
def close (delegated : List String) (zone : Zone) : Step Building Unit := do
  let building ← get
  let wanted := zone.name ∈ delegated ∧ !Keyed.contains zone.name building.summaries
  let zone ← if wanted then do
      let (summary, zone) ← Zone.summary.run zone
      modify fun building =>
        { building with summaries := Keyed.insert zone.name summary building.summaries }
      pure zone
    else pure zone
  onStack (Stack.absorb zone.resources.toList)

/-- Builds a group: its zones first, then its calls on all of them. -/
def group (file : DeploymentFile) (servers : List Server) (keys : Keyed SigningKeyHandle)
    (delegated : List String) (spec : GroupSpec) : Step Building Unit := do
  let zones ← onStack (Step.collect (ZoneSpec.build file.defaults keys) spec.zones)
  let building ← get
  let zones ← callZones (spec.calls servers building.summaries) zones
  Step.each (close delegated) zones

end Building

/-! ### Deployments -/

namespace DeploymentFile

def providerList (file : DeploymentFile) : List Provider :=
  file.providers.map fun entry => { kind := entry.2.kind, name := entry.1, settings := entry.2.settings }

def declareKey (entry : String × SigningKeySpec) : Step Stack (String × SigningKeyHandle) := do
  let provider ← Step.lift ((← get).provider entry.2.provider)
  let handle ← Stack.kmsAlias entry.1 entry.2.keyAlias entry.2.keyId provider
  pure (entry.1, handle)

def delegated (file : DeploymentFile) : List String :=
  file.groups.flatMap fun group => group.delegations.map DelegationSpec.zone

/-- Builds everything the file declares, for the given servers. -/
def buildAll (file : DeploymentFile) (servers : List Server) : Step Building Unit := do
  let keys ← Building.onStack do
    Step.each Stack.addProvider file.providerList
    Step.collect declareKey file.signingKeys
  Step.each (Building.group file servers keys file.delegated) file.groups

/-- The stack that the file declares, for the given servers. -/
def build (file : DeploymentFile) (servers : List Server) : Except Fault Stack :=
  match file.buildAll servers { stack := { name := file.name } } with
  | .ok _ building => .ok building.stack
  | .error fault _ => .error fault

end DeploymentFile

end ZoneGraph
