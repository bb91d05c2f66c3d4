import ZoneGraph.Deployment.Build
import ZoneGraph.Proofs.Runs

/-! The zones of a deployment file, each built by itself. A zone is opened, signed and
registered, its users are let in, and then the calls of its group are made on it. Of
other zones it sees only the summaries that those of earlier groups leave. Its
nameservers are looked up at the end if it is the first zone of a name that some group
delegates to. -/
namespace ZoneGraph

namespace Zone

/-- Makes a call on the zone, or refuses where an entry stands for none. -/
def ask : Except Fault Call → Step Zone Unit
  | .ok call => call.perform
  | .error fault => throw fault

end Zone

namespace DeploymentFile

variable (file : DeploymentFile)

/-! ### Providers and keys -/

def provider (name : String) : Except Fault Provider :=
  match Keyed.find? name file.providers with
  | some spec => .ok { kind := spec.kind, name, settings := spec.settings }
  | none => .error (.deployment (.unknownProvider name))

def keyAlias (entry : String × SigningKeySpec) : Except Fault Resource := do
  let provider ← file.provider entry.2.provider
  let resource ← Resource.new .kmsAlias entry.1 provider
  pure (resource |>.setText "name" entry.2.keyAlias |>.setText "target_key_id" entry.2.keyId)

def keyAliases : Except Fault (List Resource) := file.signingKeys.mapM file.keyAlias

/-- What is known of a signing key: a reference to the alias, which lies at its name. -/
def keyHandle (name : String) : SigningKeyHandle :=
  ⟨(Resource.reference "target_key_arn" { kind := .kmsAlias, path := name, provider := "" }).interpolate⟩

def keyHandles : Keyed SigningKeyHandle := file.signingKeys.map fun entry => (entry.1, keyHandle entry.1)

end DeploymentFile

/-! ### One zone -/

namespace ZoneSpec

variable (file : DeploymentFile) (spec : ZoneSpec)

/-- The zone registered as the file asks. -/
def registered (zone : Zone) : Except Fault Zone :=
  match spec.registrar with
  | some registrar => do
    let provider ← file.provider registrar.provider
    (Zone.register provider registrar.dnssec).final zone
  | none => pure zone

def prepared : Except Fault Zone := do
  let provider ← file.provider spec.provider
  let zone ← spec.openZone file.defaults provider
  let zone ← (spec.signZone file.keyHandles).final zone
  let zone ← (Step.each Zone.allowUser spec.allowUsers).final zone
  spec.registered file zone

/-- The zone after the calls of its group were made on it alone, with a look-up of its
nameservers if others need them. -/
def alone (calls : List (Except Fault Call)) (lookUp : Bool) : Except Fault Zone := do
  let zone ← spec.prepared file
  let zone ← (Step.each Zone.ask calls).final zone
  if lookUp then Zone.nameservers.final zone else pure zone

theorem registered_eq_ok {file : DeploymentFile} {spec : ZoneSpec} {zone next : Zone} :
    spec.registered file zone = .ok next ↔
      (spec.registrar = none ∧ zone = next) ∨
        ∃ registrar provider, spec.registrar = some registrar ∧ file.provider registrar.provider = .ok provider ∧
          Zone.register provider registrar.dnssec zone = .ok () next := by
  unfold registered
  cases spec.registrar with
  | none => simp [pure, Except.pure]
  | some registrar => simp [Step.except_bind_eq_ok, Step.final_unit_eq_ok]

theorem prepared_eq_ok {file : DeploymentFile} {spec : ZoneSpec} {zone : Zone} :
    spec.prepared file = .ok zone ↔
      ∃ provider opened signed allowed, file.provider spec.provider = .ok provider ∧
        spec.openZone file.defaults provider = .ok opened ∧
        spec.signZone file.keyHandles opened = .ok () signed ∧
        Step.each Zone.allowUser spec.allowUsers signed = .ok () allowed ∧
        spec.registered file allowed = .ok zone := by
  simp only [prepared, Step.except_bind_eq_ok, Step.final_unit_eq_ok]
  constructor
  · rintro ⟨provider, hprovider, opened, hopened, signed, hsigned, allowed, hallowed, h⟩
    exact ⟨provider, opened, signed, allowed, hprovider, hopened, hsigned, hallowed, h⟩
  · rintro ⟨provider, opened, signed, allowed, hprovider, hopened, hsigned, hallowed, h⟩
    exact ⟨provider, hprovider, opened, hopened, signed, hsigned, allowed, hallowed, h⟩

theorem alone_eq_ok {file : DeploymentFile} {spec : ZoneSpec} {calls : List (Except Fault Call)} {lookUp : Bool}
    {zone : Zone} :
    spec.alone file calls lookUp = .ok zone ↔
      ∃ prepared called, spec.prepared file = .ok prepared ∧
        Step.each Zone.ask calls prepared = .ok () called ∧
        ((lookUp = true ∧ ∃ servers, Zone.nameservers called = .ok servers zone) ∨
          (lookUp = false ∧ called = zone)) := by
  simp only [alone, Step.except_bind_eq_ok, Step.final_unit_eq_ok]
  cases lookUp with
  | false => simp [pure, Except.pure]
  | true => simp [Step.final_eq_ok]

/-- Whether the zone is the first of its name and some group delegates to that name. -/
def isFirstDelegated (before : List ZoneSpec) : Bool :=
  spec.name ∈ file.delegated ∧ spec.name ∉ before.map ZoneSpec.name

/-- The output for the identifier of the zone, if it is to be known. -/
def output (zone : Zone) : Option (String × Data) :=
  spec.outputZoneId.map fun name => (name, .text zone.zoneId.interpolate)

/-- One output for each zone whose identifier is to be known. -/
def outputs (specs : List ZoneSpec) (zones : List Zone) : List (String × Data) :=
  (specs.zip zones).filterMap fun pair => pair.1.output pair.2

end ZoneSpec

/-! ### All zones -/

/-- What a zone that was built leaves to later groups. -/
def summaryOf? : Except Fault Zone → Option (String × ZoneSummary)
  | .ok zone => (Zone.summary.answer zone).toOption.map (zone.name, ·)
  | .error _ => none

/-- The summaries that zones leave. Of zones with one name the first one counts. -/
def summariesOf (runs : List (Except Fault Zone)) : Keyed ZoneSummary := runs.filterMap summaryOf?

namespace DeploymentFile

variable (file : DeploymentFile) (servers : List Server)

/-- The zones of a group, each built by itself, given the zones before them. -/
def groupRuns (calls : List (Except Fault Call)) : List ZoneSpec → List ZoneSpec → List (Except Fault Zone)
  | _, [] => []
  | before, spec :: rest =>
    spec.alone file calls (spec.isFirstDelegated file before) :: groupRuns calls (before ++ [spec]) rest

theorem length_groupRuns {file : DeploymentFile} {calls : List (Except Fault Call)} (specs before : List ZoneSpec) :
    (file.groupRuns calls before specs).length = specs.length := by
  induction specs generalizing before with
  | nil => rfl
  | cons spec rest ih => rw [groupRuns, List.length_cons, List.length_cons, ih]

theorem length_of_groupRuns {file : DeploymentFile} {calls : List (Except Fault Call)} {specs before : List ZoneSpec}
    {built : List Zone} (h : file.groupRuns calls before specs = built.map .ok) : specs.length = built.length := by
  rw [← length_groupRuns specs before, h, List.length_map]

theorem groupRuns_append {file : DeploymentFile} {calls : List (Except Fault Call)}
    (specs more before : List ZoneSpec) :
    file.groupRuns calls before (specs ++ more) =
      file.groupRuns calls before specs ++ file.groupRuns calls (before ++ specs) more := by
  induction specs generalizing before with
  | nil => simp [groupRuns]
  | cons spec rest ih =>
    rw [List.cons_append, groupRuns, groupRuns, ih, List.append_assoc]
    rfl

/-- The zones of some groups, each built by itself, given those of the groups before them. -/
def runsAfter : List ZoneSpec → List (Except Fault Zone) → List GroupSpec → List (Except Fault Zone)
  | _, _, [] => []
  | before, earlier, group :: rest =>
    let runs := file.groupRuns (group.calls servers (summariesOf earlier)) before group.zones
    runs ++ runsAfter (before ++ group.zones) (earlier ++ runs) rest

theorem runsAfter_append {file : DeploymentFile} {servers : List Server} (groups more : List GroupSpec)
    (before : List ZoneSpec) (earlier : List (Except Fault Zone)) :
    file.runsAfter servers before earlier (groups ++ more) =
      file.runsAfter servers before earlier groups ++
        file.runsAfter servers (before ++ groups.flatMap GroupSpec.zones)
          (earlier ++ file.runsAfter servers before earlier groups) more := by
  induction groups generalizing before earlier with
  | nil => simp [runsAfter]
  | cons group rest ih =>
    rw [List.cons_append, runsAfter, runsAfter, ih, List.flatMap_cons, List.append_assoc, List.append_assoc,
      List.append_assoc]

/-- Every zone of the file built by itself, in the order of the file. -/
def runs : List (Except Fault Zone) := file.runsAfter servers [] [] file.groups

/-- The zones of the file, group after group. -/
def zoneSpecs : List ZoneSpec := file.groups.flatMap GroupSpec.zones

theorem groupRuns_forall₂ (file : DeploymentFile) (calls : List (Except Fault Call)) (specs before : List ZoneSpec) :
    List.Forall₂ (fun spec run => ∃ calls lookUp, run = spec.alone file calls lookUp) specs
      (file.groupRuns calls before specs) := by
  induction specs generalizing before with
  | nil => exact .nil
  | cons spec rest ih => exact .cons ⟨calls, _, rfl⟩ (ih _)

/-- Each run is that of a zone of the file, in order. -/
theorem runsAfter_forall₂ (file : DeploymentFile) (servers : List Server) (groups : List GroupSpec)
    (before : List ZoneSpec) (earlier : List (Except Fault Zone)) :
    List.Forall₂ (fun spec run => ∃ calls lookUp, run = spec.alone file calls lookUp)
      (groups.flatMap GroupSpec.zones) (file.runsAfter servers before earlier groups) := by
  induction groups generalizing before earlier with
  | nil => exact .nil
  | cons group rest ih => exact List.rel_append (groupRuns_forall₂ file _ group.zones before) (ih _ _)

theorem forall₂_of_runs {file : DeploymentFile} {servers : List Server} {zones : List Zone}
    (h : file.runs servers = zones.map .ok) :
    List.Forall₂ (fun spec zone => ∃ calls lookUp, spec.alone file calls lookUp = .ok zone) file.zoneSpecs zones := by
  have hall : List.Forall₂ (fun spec run => ∃ calls lookUp, run = spec.alone file calls lookUp) file.zoneSpecs
      (file.runs servers) := runsAfter_forall₂ file servers file.groups [] []
  rw [h, List.forall₂_map_right_iff] at hall
  exact hall.imp fun spec zone ⟨calls, lookUp, hrun⟩ => ⟨calls, lookUp, hrun.symm⟩

end DeploymentFile

end ZoneGraph
