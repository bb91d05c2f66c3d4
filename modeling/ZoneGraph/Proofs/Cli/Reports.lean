import ZoneGraph.Cli.Run
import ZoneGraph.Proofs.Deployment.Building
import ZoneGraph.Proofs.Stack.Zones
import ZoneGraph.Proofs.Zone.Separation

/-! What the commands report of a deployment. Every resource that a zone declares names the
zone, and only the aliases of signing keys belong to none, so what is counted zone by zone
is everything else. The records of a zone are listed just if the zone is counted, also when
it has none, and they stand as they do among all records. -/
namespace ZoneGraph

/-! ### Resources of a zone -/

namespace Zone

variable {zone next : Zone}

/-- Whether all that a zone holds names the zone. -/
def HoldsOwn (zone : Zone) : Prop := ∀ resource ∈ zone.resources.toList, resource.zone = some zone.name

/-- A zone that an operation adds to holds what names it, since it keeps its name. -/
theorem HoldsOwn.append {operation : Operation} (h : zone.HoldsOwn) (hname : next.name = zone.name)
    (hadds : zone.Appends (operation.Adds zone) next) : next.HoldsOwn := by
  obtain ⟨added, hset, hadded⟩ := hadds
  intro resource hresource
  rw [hset, List.mem_append] at hresource
  rw [hname]
  rcases hresource with hold | hnew
  · exact h resource hold
  · exact (hadded resource hnew).placed.2

/-- An operation that adds whether it goes through or not keeps what a zone holds its own. -/
theorem holdsOwn_of_gains {α : Type} {step : Step Zone α} {operation : Operation}
    (hgains : ∀ zone : Zone, zone.Gains (operation.Adds zone) (Step.after step zone)) :
    Step.Respects (fun zone next => zone.HoldsOwn → next.HoldsOwn) step := by
  intro zone value next hrun h
  have hnext := hgains zone
  rw [Step.after_of_ok hrun] at hnext
  have hname : next.name = zone.name := by
    obtain ⟨added, set, key, rfl, -⟩ := hnext
    rfl
  exact h.append hname hnext.appends

theorem holdsOwn_open {backend : Backend} {origin : Origin} {provider : Provider}
    (h : Zone.open backend origin provider = .ok zone) : zone.HoldsOwn := by
  obtain ⟨-, -, -, -, -, hresources⟩ := open_eq_ok h
  intro resource hresource
  rw [hresources] at hresource
  split at hresource
  · obtain rfl := List.mem_singleton.mp hresource
    rfl
  · cases hresource

theorem holdsOwn_nameservers : Step.Respects (fun zone next => zone.HoldsOwn → next.HoldsOwn) nameservers := by
  intro zone servers next hrun h
  have hlooks : Operation.nameservers.LooksUp zone := ⟨_, _, hrun⟩
  exact h.append (extends_nameservers _ _ _ hrun).name_eq (appends_nameservers hrun hlooks)

theorem holdsOwn_register (registrar : Provider) (dnssec : Bool) :
    Step.Respects (fun zone next => zone.HoldsOwn → next.HoldsOwn) (register registrar dnssec) := by
  intro zone value next hrun h
  exact h.append (extends_register registrar dnssec _ _ _ hrun).name_eq (appends_register hrun)

end Zone

/-! ### Resources of a deployment -/

namespace DeploymentFile

variable {file : DeploymentFile} {servers : List Server} {stack : Stack}

theorem holdsOwn_alone {spec : ZoneSpec} {calls : List (Except Fault Call)} {lookUp : Bool} {zone : Zone}
    (h : spec.alone file calls lookUp = .ok zone) : zone.HoldsOwn := by
  apply ZoneSpec.alone_keeps h
  · exact fun provider opened _ hopened => Zone.holdsOwn_open hopened
  · intro zone value next hrun h
    obtain ⟨-, rfl⟩ | ⟨-, handle, hsign, -⟩ := ZoneSpec.signZone_ok hrun
    · exact h
    · exact Zone.holdsOwn_of_gains (Zone.gains_sign handle) _ _ _ hsign h
  · exact fun name => Zone.holdsOwn_of_gains (Zone.gains_allowUser name)
  · exact fun name provider dnssec _ => Zone.holdsOwn_register provider dnssec
  · exact fun call => Zone.holdsOwn_of_gains (Zone.gains_perform call)
  · exact Zone.holdsOwn_nameservers

theorem zone_keyAlias {entry : String × SigningKeySpec} {resource : Resource} (h : file.keyAlias entry = .ok resource) :
    resource.zone = none := by
  obtain ⟨provider, made, -, hnew, rfl⟩ := keyAlias_eq_ok.mp h
  obtain ⟨-, rfl⟩ := Resource.new_eq_ok.mp hnew
  rfl

/-- All resources but the aliases of the signing keys name a zone. -/
theorem length_zoneNames (h : file.build servers = .ok stack) :
    stack.zoneNames.length + file.signingKeys.length = stack.resources.size := by
  obtain ⟨aliases, zones, haliases, hruns, hresources, -⟩ := build_ok h
  have hkeys : aliases.length = file.signingKeys.length := (Step.mapM_ok haliases).length_eq.symm
  have hfree : aliases.filterMap Resource.zone = [] := List.filterMap_eq_nil_iff.mpr <|
    Step.forall_of_forall₂ (P := fun resource => resource.zone = none) (fun _ _ => zone_keyAlias)
      (Step.mapM_ok haliases)
  have howned : ((zones.flatMap (·.resources.toList)).filterMap Resource.zone).length =
      (zones.flatMap (·.resources.toList)).length := by
    rw [List.filterMap_length_eq_length]
    intro resource hresource
    obtain ⟨zone, hzone, hresource⟩ := List.mem_flatMap.mp hresource
    have hall := Step.forall_of_forall₂ (fun _ _ ⟨_, _, halone⟩ => holdsOwn_alone halone) (forall₂_of_runs hruns)
    rw [hall zone hzone resource hresource]
    rfl
  rw [Stack.zoneNames, ResourceSet.size, hresources, List.filterMap_append, hfree, List.nil_append, howned,
    List.length_append, hkeys, Nat.add_comm]

end DeploymentFile

/-! ### Views -/

namespace Cli

/-- Counts of zones that account for all that a deployment declares. Every zone that
declared something is there once, and the zones stand in the order of their first
resources. The records add up to all records, and the resources to all but the aliases of
the signing keys. -/
structure Accounts (file : DeploymentFile) (stack : Stack) (counts : List ZoneCount) : Prop where
  nodup : (counts.map ZoneCount.zone).Nodup
  declared : ∀ name, name ∈ counts.map ZoneCount.zone ↔ ∃ resource ∈ stack.resources.toList, resource.zone = some name
  ordered : (counts.map ZoneCount.zone).Pairwise fun first second =>
    stack.resources.toList.findIdx (fun resource => resource.zone = some first) <
      stack.resources.toList.findIdx fun resource => resource.zone = some second
  exact : ∀ count ∈ counts,
    count.resources = (stack.resources.toList.filter fun resource => resource.zone = some count.zone).length ∧
      count.records = (stack.records.filter fun record => record.zone = count.zone).length
  resources : (counts.map ZoneCount.resources).sum + file.signingKeys.length = stack.resources.size
  records : (counts.map ZoneCount.records).sum = stack.records.length

/-- What a run prints that shows something: a listing for people, or data for programs. -/
def shown (format : OutputFormat) (data : Data) (listing : String) : Outcome where
  code := 0
  stdout := match format with
    | .pretty => listing
    | .json => Json.pretty data ++ "\n"
    | .yaml => Yaml.document data

/-- The counts of a stack and of its zones, as data. -/
def countsData (stack : Stack) (counts : List ZoneCount) : Data :=
  .table [("stack", .text stack.name), ("providers", .int stack.providers.length),
    ("resources", .int stack.resources.size),
    ("zones", .list (counts.map fun count => .table [("zone", .text count.zone),
      ("resources", .int count.resources), ("records", .int count.records)]))]

def recordsData (records : List Published) : Data :=
  .list (records.map fun record => .table (
    [("zone", .text record.zone), ("name", .text record.name), ("type", .text record.type.name),
      ("values", .list (record.values.map .text)), ("ttl", .int record.ttl.toNat)] ++
    match record.setIdentifier with
    | some setIdentifier => [("set_identifier", .text setIdentifier)]
    | none => []))

variable {stack : Stack} {name : String}

theorem recordsOf_some (stack : Stack) (name : String) : recordsOf stack (some name) =
    if (stack.records.filter fun record => record.zone = name).isEmpty ∧ name ∉ stack.zones then none
    else some (stack.records.filter fun record => record.zone = name) := rfl

/-- A zone that is not known has no records, so the test for their absence does not matter. -/
theorem recordsOf_eq_none : recordsOf stack (some name) = none ↔ name ∉ stack.zones := by
  have hempty : name ∉ stack.zones → (stack.records.filter fun record => record.zone = name).isEmpty := by
    intro hunknown
    rw [List.isEmpty_iff, List.filter_eq_nil_iff]
    intro record hrecord hzone
    exact hunknown (of_decide_eq_true hzone ▸ Stack.zone_mem_of_mem_records hrecord)
  rw [recordsOf_some]
  constructor
  · intro h
    by_contra hknown
    rw [if_neg fun hnone => hnone.2 (hknown)] at h
    cases h
  · exact fun hunknown => if_pos ⟨hempty hunknown, hunknown⟩

theorem recordsOf_of_mem (h : name ∈ stack.zones) :
    recordsOf stack (some name) = some (stack.records.filter fun record => record.zone = name) := by
  rw [recordsOf_some]
  exact if_neg fun hnone => hnone.2 h

theorem accounts_countStack {file : DeploymentFile} {servers : List Server} (h : file.build servers = .ok stack) :
    Accounts file stack (countStack stack).zones where
  nodup := by
    rw [zones_countStack]
    exact stack.nodup_zones
  declared name := by
    rw [zones_countStack]
    exact Stack.mem_zones
  ordered := by
    rw [zones_countStack]
    exact stack.zones_ordered
  exact count hcount := by
    obtain ⟨name, -, rfl⟩ := List.mem_map.mp hcount
    exact ⟨rfl, rfl⟩
  resources := by
    rw [sum_resources]
    exact DeploymentFile.length_zoneNames h
  records := sum_records stack

/-! ### Output -/

theorem toData_published (records : List Published) : .list (records.map Published.toData) = recordsData records := by
  refine congrArg Data.list (List.map_congr_left fun record _ => ?_)
  unfold Published.toData
  cases record.setIdentifier <;> rfl

theorem printRecords_of_some {zone : Option String} {records : List Published} (format : OutputFormat) (colors : Bool)
    (h : recordsOf stack zone = some records) : printRecords format colors zone stack =
      shown format (recordsData records) (recordListing colors records) := by
  rw [printRecords, h, ← toData_published]
  rfl

/-- The command fails for a zone that is not known, and lists the records of any other. -/
theorem printRecords_some (format : OutputFormat) (colors : Bool) (name : String) (stack : Stack) :
    printRecords format colors (some name) stack =
      if name ∈ stack.zones then
        shown format (recordsData (stack.records.filter fun record => record.zone = name))
          (recordListing colors (stack.records.filter fun record => record.zone = name))
      else { code := 1, stderr := "Error: Unknown zone: " ++ name ++ "\n" } := by
  split
  · rename_i hknown
    exact printRecords_of_some format colors (recordsOf_of_mem hknown)
  · rename_i hunknown
    have htext : "Error: Unknown zone: " = "Error: " ++ "Unknown zone: " := rfl
    rw [printRecords, recordsOf_eq_none.mpr hunknown, htext]
    simp only [Outcome.failed, Failure.text, Failure.causesText, Option.getD_some, String.append_empty,
      String.append_assoc]

/-! ### Runs -/

section

variable {σ : Type} {files : FileAccess (StateM σ)} {deployment : Deployment} {servers : List Server} {path : String}
  {start between done : σ}

theorem bind_of_eq {α β : Type} {first : StateM σ α} {second : α → StateM σ β} {value : α}
    (h : first start = (value, between)) : (first >>= second) start = second value between := by
  change StateT.bind first second start = _
  rw [StateT.bind, h]
  rfl

theorem loadStack_of_build (hload : Deployment.load files path start = (.ok deployment, between))
    (hservers : deployment.servers files between = (.ok servers, done))
    (h : deployment.file.build servers = .ok stack) : loadStack files path start = (.ok stack, done) := by
  have hbuild : deployment.build files between = (.ok stack, done) := by
    rw [Deployment.build, bind_of_eq hservers, ← h]
    rfl
  rw [loadStack, bind_of_eq hload]
  exact bind_of_eq hbuild

/-- A run on such a deployment shows what is asked of its stack. -/
theorem execute_of_build {environment : Environment} (arguments : Arguments)
    (hpath : arguments.deployment.or environment.defaultDeployment? = some path)
    (hload : Deployment.load files path start = (.ok deployment, between))
    (hservers : deployment.servers files between = (.ok servers, done))
    (h : deployment.file.build servers = .ok stack) (view : View) :
    execute files environment { arguments with command := .view view } start =
      present files { arguments with command := .view view } (environment.wantsColors && !arguments.noColor)
        stack view done := by
  rw [execute, hpath]
  exact bind_of_eq (loadStack_of_build hload hservers h)

end

/-- What runs of a program that end in one state print of a stack with these counts. -/
structure Reports {σ : Type} (format : OutputFormat) (colors : Bool) (stack : Stack) (counts : List ZoneCount)
    (done : σ) (run : View → Outcome × σ) : Prop where
  check : run .check = (shown format (countsData stack counts)
    (countListing colors ⟨stack.name, stack.providers.length, stack.resources.size, counts⟩), done)
  all : run (.records none) = (shown format (recordsData stack.records) (recordListing colors stack.records), done)
  zone : ∀ name ∈ counts.map ZoneCount.zone, run (.records (some name)) =
    (shown format (recordsData (stack.records.filter fun record => record.zone = name))
      (recordListing colors (stack.records.filter fun record => record.zone = name)), done)
  unknown : ∀ name ∉ counts.map ZoneCount.zone, run (.records (some name)) =
    ({ code := 1, stderr := "Error: Unknown zone: " ++ name ++ "\n" }, done)

/-- What the commands that count and list print of a deployment that builds. -/
theorem views_agree {file : DeploymentFile} {servers : List Server} (h : file.build servers = .ok stack) :
    ∃ counts : List ZoneCount, Accounts file stack counts ∧
      ∀ {σ : Type} (files : FileAccess (StateM σ)) (environment : Environment) (arguments : Arguments)
        (path baseDir : String) (start between done : σ),
        arguments.deployment.or environment.defaultDeployment? = some path →
        Deployment.load files path start = (.ok ⟨file, baseDir⟩, between) →
        Deployment.servers files ⟨file, baseDir⟩ between = (.ok servers, done) →
        Reports arguments.format (environment.wantsColors && !arguments.noColor) stack counts done
          fun view => execute files environment { arguments with command := .view view } start := by
  refine ⟨(countStack stack).zones, accounts_countStack h, ?_⟩
  intro σ files environment arguments path baseDir start between done hpath hload hservers
  have hrun := execute_of_build arguments hpath hload hservers h
  have hrecords (zone : Option String) :
      execute files environment { arguments with command := .view (.records zone) } start =
        (printRecords arguments.format (environment.wantsColors && !arguments.noColor) zone stack, done) :=
    hrun (.records zone)
  refine ⟨hrun .check, ?_, fun name hname => ?_, fun name hname => ?_⟩
  · rw [hrecords, printRecords_of_some _ _ rfl]
  · rw [zones_countStack] at hname
    rw [hrecords, printRecords_some, if_pos hname]
  · rw [zones_countStack] at hname
    rw [hrecords, printRecords_some, if_neg hname]

/-- A deployment of two zones, the first of them without a record, and a signing key. -/
def reportText : String :=
  "[defaults]
  acme_root = \"luffy.cx\"
  [providers.main]
  kind = \"aws\"
  [providers.vb]
  kind = \"gandi\"
  [signing_keys.cmk]
  provider = \"main\"
  alias = \"alias/cmk\"
  target_key_id = \"0b2c\"
  [[groups]]
  zones = [\x7b backend = \"route53\", name = \"acme.cx\", provider = \"main\" \x7d]
  [[groups]]
  zones = [\x7b backend = \"livedns\", name = \"luffy.cx\", provider = \"vb\" \x7d]
  records = [\x7b name = \"www\", type = \"A\", values = \"203.0.113.7\" \x7d]
  "

def reportFiles : FileAccess (StateM Unit) where
  read _ := pure (.ok reportText)
  write _ _ := pure (.ok ())

def reportArguments (format : OutputFormat) (view : View) : Arguments where
  deployment := some "deployment.toml"
  format := format
  verbose := false
  noColor := false
  command := .view view

/-- Runs on these files, and what each prints. -/
def reportRuns : List (OutputFormat × View × Outcome) :=
  [(.pretty, .check, .print <|
      "OK zonekit (2 providers, 3 resources)\n" ++
      "  acme.cx                         1 resources    0 records\n" ++
      "  luffy.cx                        1 resources    1 records\n"),
    (.json, .check, .print <|
      "\x7b\n  \"stack\": \"zonekit\",\n  \"providers\": 2,\n  \"resources\": 3,\n  \"zones\": [\n" ++
      "    \x7b\n      \"zone\": \"acme.cx\",\n      \"resources\": 1,\n      \"records\": 0\n    \x7d,\n" ++
      "    \x7b\n      \"zone\": \"luffy.cx\",\n      \"resources\": 1,\n      \"records\": 1\n    \x7d\n  ]\n\x7d\n"),
    (.pretty, .records none, .print "luffy.cx\n  www                       86400 A      203.0.113.7\n"),
    (.json, .records (some "luffy.cx"), .print <|
      "[\n  \x7b\n    \"zone\": \"luffy.cx\",\n    \"name\": \"www\",\n    \"type\": \"A\",\n" ++
      "    \"values\": [\n      \"203.0.113.7\"\n    ],\n    \"ttl\": 86400\n  \x7d\n]\n"),
    (.yaml, .records (some "acme.cx"), .print "[]\n"),
    (.json, .records (some "luffy.com"), { code := 1, stderr := "Error: Unknown zone: luffy.com\n" })]

set_option maxRecDepth 4000 in
/-- The runs are made on one deployment, and what they print is what the counts of its
zones account for. -/
theorem views_agree_sample :
    (∃ deployment stack counts, Deployment.ofText reportText = .ok deployment ∧ deployment.file.build [] = .ok stack ∧
      Accounts deployment.file stack counts ∧
      ∀ format, Reports format false stack counts () fun view =>
        execute reportFiles { vars := [] } (reportArguments format view) ()) ∧
    ∀ entry ∈ reportRuns,
      execute reportFiles { vars := [] } (reportArguments entry.1 entry.2.1) () = (entry.2.2, ()) := by
  let prints (stack : Stack) : Bool := reportRuns.all fun entry =>
    (present reportFiles (reportArguments entry.1 entry.2.1) false stack entry.2.1 ()).1 = entry.2.2
  have hview : (Deployment.ofText reportText).toOption.map (fun deployment =>
      (deployment.file.servers, deployment.file.serversFile, (deployment.file.build []).toOption.map prints)) =
        some ([], none, some true) := by
    -- the text is evaluated as a list of characters, not decoded from its bytes
    have hchars : reportText.toList = _ := String.toList_ofList
    rw [Deployment.ofText, Toml.read?, ← String.length_toList, hchars]
    decide +kernel
  obtain ⟨deployment, htext, hview⟩ := Step.exists_ok_of_toOption hview
  simp only [Prod.mk.injEq] at hview
  obtain ⟨hservers, hlist, hbuild⟩ := hview
  obtain ⟨stack, h, hprints⟩ := Step.exists_ok_of_toOption hbuild
  obtain ⟨counts, haccounts, hreports⟩ := views_agree h
  have hload : Deployment.load reportFiles "deployment.toml" () = (.ok ⟨deployment.file, ""⟩, ()) := by
    change (Except.map _ (Deployment.ofText reportText), ()) = _
    rw [htext]
    rfl
  have hlisted : Deployment.servers reportFiles ⟨deployment.file, ""⟩ () = (.ok [], ()) := by
    rw [Deployment.servers, hlist, hservers]
    rfl
  refine ⟨⟨deployment, stack, counts, htext, h, haccounts, fun format => ?_⟩, fun entry hentry => ?_⟩
  · exact hreports reportFiles { vars := [] } (reportArguments format .check) "deployment.toml" "" () () () rfl hload
      hlisted
  · rw [← of_decide_eq_true (List.all_eq_true.mp hprints entry hentry)]
    exact execute_of_build (reportArguments entry.1 entry.2.1) rfl hload hlisted h entry.2.1

end Cli

end ZoneGraph
