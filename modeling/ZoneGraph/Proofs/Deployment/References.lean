import ZoneGraph.Proofs.Deployment.Building
import ZoneGraph.Proofs.Zone.Paths
import ZoneGraph.Proofs.Zone.References

/-! No reference of a deployment dangles or points forward. Every reference that a build
makes is to a resource that the stack holds at an earlier place: those of a zone to its
own resources and to the aliases of signing keys, and those of a delegation to the
resources of a child in an earlier group, which is looked up before it is closed. -/
namespace ZoneGraph

/-! ### Zones by themselves -/

namespace DeploymentFile

variable {file : DeploymentFile} {aliases : List Resource}

theorem grounded_keyAlias {entry : String × SigningKeySpec} {resource : Resource} {earlier : List Resource}
    (h : file.keyAlias entry = .ok resource) : resource.Grounded earlier := by
  obtain ⟨provider, made, -, hnew, rfl⟩ := keyAlias_eq_ok.mp h
  obtain ⟨-, rfl⟩ := Resource.new_eq_ok.mp hnew
  exact Resource.grounded_of_free rfl rfl

theorem groundedAll_keyAliases {entries : Keyed SigningKeySpec} {earlier : List Resource}
    (h : List.Forall₂ (fun entry resource => file.keyAlias entry = .ok resource) entries aliases) :
    GroundedAll earlier aliases := by
  induction h generalizing earlier with
  | nil => trivial
  | cons hfirst _ ih => exact GroundedAll.cons_iff.mpr ⟨grounded_keyAlias hfirst, ih⟩

theorem refersTo_keyHandle {entry : String × SigningKeySpec} {resource : Resource}
    (h : file.keyAlias entry = .ok resource) : RefersTo [resource] (keyHandle entry.1).keyArn := by
  obtain ⟨provider, made, -, hnew, rfl⟩ := keyAlias_eq_ok.mp h
  obtain ⟨-, rfl⟩ := Resource.new_eq_ok.mp hnew
  exact ⟨_, List.mem_singleton.mpr rfl, "target_key_arn", rfl⟩

theorem refersTo_of_find?_keyHandles {name : String} {handle : SigningKeyHandle}
    (haliases : file.keyAliases = .ok aliases) (h : Keyed.find? name file.keyHandles = some handle) :
    RefersTo aliases handle.keyArn := by
  have hall := Step.mapM_ok haliases
  clear haliases
  unfold keyHandles at h
  generalize file.signingKeys = entries at hall h
  induction hall with
  | nil => cases h
  | @cons entry resource rest others hfirst hothers ih =>
    rw [List.map_cons, Keyed.find?] at h
    split at h
    · cases h
      exact (refersTo_keyHandle hfirst).mono fun other ho => List.mem_cons.mpr (Or.inl (List.mem_singleton.mp ho))
    · exact (ih h).mono fun other => List.mem_cons_of_mem _

end DeploymentFile

namespace ZoneSpec

variable {file : DeploymentFile} {aliases outer : List Resource} {spec : ZoneSpec} {zone next : Zone}

theorem grounded_signZone (haliases : file.keyAliases = .ok aliases) (houter : ∀ resource ∈ aliases, resource ∈ outer)
    (h : zone.Grounded outer) (hrun : spec.signZone file.keyHandles zone = .ok () next) : next.Grounded outer := by
  obtain ⟨-, rfl⟩ | ⟨-, handle, hsign, hkey⟩ := signZone_ok hrun
  · exact h
  · refine Zone.grounded_sign h ?_ hsign
    intro key hhandle
    obtain ⟨name, hfound⟩ := hkey key hhandle
    exact (DeploymentFile.refersTo_of_find?_keyHandles haliases hfound).mono houter

/-- A zone that was built by itself is grounded wherever the aliases are. -/
theorem grounded_alone {calls : List (Except Fault Call)} {lookUp : Bool} (haliases : file.keyAliases = .ok aliases)
    (houter : ∀ resource ∈ aliases, resource ∈ outer) (h : spec.alone file calls lookUp = .ok zone) :
    zone.Grounded outer := by
  apply alone_keeps h
  · exact fun provider opened _ hopened => Zone.grounded_open hopened
  · exact fun _ _ _ hrun h => grounded_signZone haliases houter h hrun
  · exact fun name _ _ _ hrun h => Zone.grounded_allowUser h hrun
  · exact fun name provider dnssec _ _ _ _ hrun h => Zone.grounded_register h hrun
  · exact fun call _ _ _ hrun h => Zone.grounded_perform h hrun
  · exact fun _ _ _ hrun h => Zone.grounded_nameservers h hrun

end ZoneSpec

/-! ### All zones -/

namespace DeploymentFile

variable {file : DeploymentFile} {aliases : List Resource}

/-- Every zone that was built by itself is grounded in the aliases. -/
theorem grounded_of_mem_runs {specs : List ZoneSpec} {zones : List Zone} (haliases : file.keyAliases = .ok aliases)
    (h : List.Forall₂ (fun spec zone => ∃ calls lookUp, spec.alone file calls lookUp = .ok zone) specs zones)
    {outer : List Resource} (houter : ∀ resource ∈ aliases, resource ∈ outer) :
    ∀ zone ∈ zones, zone.Grounded outer :=
  Step.forall_of_forall₂ (fun _ _ ⟨_, _, halone⟩ => ZoneSpec.grounded_alone haliases houter halone) h

/-- What grounded zones hand over is grounded, one zone after the other. -/
theorem groundedAll_zones {zones : List Zone} {outer : List Resource}
    (houter : ∀ resource ∈ aliases, resource ∈ outer)
    (h : ∀ zone ∈ zones, ∀ outer, (∀ resource ∈ aliases, resource ∈ outer) → zone.Grounded outer) :
    GroundedAll outer (zones.flatMap (·.resources.toList)) := by
  induction zones generalizing outer with
  | nil => trivial
  | cons zone rest ih =>
    obtain ⟨hzone, hrest⟩ := List.forall_mem_cons.mp h
    rw [List.flatMap_cons, GroundedAll.append_iff]
    exact ⟨(hzone outer houter).resources, ih (fun resource hr => List.mem_append_left _ (houter resource hr)) hrest⟩

theorem groundedAll_stack {servers : List Server} {stack : Stack} (h : file.build servers = .ok stack) :
    GroundedAll [] stack.resources.toList := by
  obtain ⟨aliases, zones, haliases, hruns, hresources, -⟩ := build_ok h
  rw [hresources, GroundedAll.append_iff]
  constructor
  · exact groundedAll_keyAliases (Step.mapM_ok haliases)
  · refine groundedAll_zones (fun _ => id) fun zone hz outer houter => ?_
    exact grounded_of_mem_runs haliases (forall₂_of_runs hruns) houter zone hz

end DeploymentFile

/-! ### Outputs -/

theorem ZoneSpec.backend_of_output {defaults : ZoneDefaults} {provider : Provider} {spec : ZoneSpec} {zone : Zone}
    (h : spec.openZone defaults provider = .ok zone) (houtput : spec.outputZoneId.isSome) :
    spec.backend = .route53 := by
  unfold openZone at h
  split at h
  · cases h
  · rename_i hneeds
    cases hbackend : spec.backend with
    | route53 => rfl
    | livedns => exact absurd ⟨hbackend, by simp [needsHostedZone, houtput]⟩ hneeds

namespace DeploymentFile

variable {file : DeploymentFile}

/-- An output is the identifier of a hosted zone that the stack holds. -/
theorem refersTo_of_mem_outputs {specs : List ZoneSpec} {zones : List Zone} {aliases : List Resource}
    {output : String × Data} (haliases : file.keyAliases = .ok aliases)
    (h : List.Forall₂ (fun spec zone => ∃ calls lookUp, spec.alone file calls lookUp = .ok zone) specs zones)
    (houtput : output ∈ ZoneSpec.outputs specs zones) :
    ∃ resource ∈ zones.flatMap (·.resources.toList), ∃ name,
      output.2 = .text (resource.reference name).interpolate := by
  induction h with
  | nil => cases houtput
  | @cons spec zone specs zones hzone _ ih =>
    rw [ZoneSpec.outputs_cons, List.mem_append] at houtput
    rcases houtput with hown | hrest
    · obtain ⟨calls, lookUp, halone⟩ := hzone
      obtain ⟨prepared, called, hprepared, -⟩ := ZoneSpec.alone_eq_ok.mp halone
      obtain ⟨provider, opened, signed, allowed, -, hopen, -⟩ := ZoneSpec.prepared_eq_ok.mp hprepared
      obtain ⟨⟨provider, opened, key, hopened, -, set, lookup, rfl, -⟩, -⟩ := ZoneSpec.alone_extends halone
      obtain ⟨name, hname, rfl⟩ := Option.map_eq_some_iff.mp (Option.mem_toList.mp hown)
      have hbackend := ZoneSpec.backend_of_output hopen (Option.isSome_of_eq_some hname)
      have hgrounded := ZoneSpec.grounded_alone haliases (fun _ => id) halone
      have hhosted := hgrounded.hosted ((Zone.open_eq_ok hopened).1.trans hbackend)
      exact ⟨_, List.mem_flatMap.mpr ⟨_, List.mem_cons_self .., hhosted⟩, "zone_id", rfl⟩
    · obtain ⟨resource, hr, found⟩ := ih hrest
      exact ⟨resource, by rw [List.flatMap_cons]; exact List.mem_append_right _ hr, found⟩

end DeploymentFile

/-! ### Children -/

def Zone.knownSummary (zone : Zone) : ZoneSummary :=
  ⟨zone.name, .reference zone.nameserversRef, zone.key.map SigningKey.dsRecord⟩

theorem summaryOf?_of_known {zone : Zone} (h : ¬ zone.needsLookup) :
    summaryOf? (.ok zone) = some (zone.name, zone.knownSummary) :=
  summaryOf?_of_ok (Zone.summary_eq_ok.mpr ⟨_, Zone.nameservers_eq_ok.mpr ⟨rfl, Or.inl ⟨h, rfl⟩⟩, rfl⟩)

/-- Whether a summary is that of a zone that was built by itself as its spec asks, with its
nameservers known. -/
def LeftBy (file : DeploymentFile) (zones : List Zone) (child : ZoneSpec) (summary : ZoneSummary) : Prop :=
  ∃ zone ∈ zones, (∃ calls, child.alone file calls true = .ok zone) ∧ ¬ zone.needsLookup ∧
    zone.key.isSome = child.sign ∧ summary = zone.knownSummary

/-- Whether the summaries of the names that are delegated to are those of the first zones
of these names. -/
def FirstsLeave (file : DeploymentFile) (specs : List ZoneSpec) (zones : List Zone) : Prop :=
  ∀ name ∈ file.delegated, Option.Rel (LeftBy file zones) (specs.find? (·.name = name))
    (Keyed.find? name (summariesOf (zones.map .ok)))

namespace FirstsLeave

variable {file : DeploymentFile} {specs : List ZoneSpec} {zones : List Zone}

theorem nil (file : DeploymentFile) : FirstsLeave file [] [] := fun _ _ => .none

theorem concat {spec : ZoneSpec} {zone : Zone} {calls : List (Except Fault Call)} (h : FirstsLeave file specs zones)
    (halone : spec.alone file calls (spec.isFirstDelegated file specs) = .ok zone) :
    FirstsLeave file (specs ++ [spec]) (zones ++ [zone]) := by
  obtain ⟨⟨provider, opened, key, -, hkey, hextends⟩, hknown⟩ := ZoneSpec.alone_extends halone
  obtain ⟨-, hname⟩ := ZoneSpec.named_of_alone halone
  have hsigned : zone.key.isSome = spec.sign := by
    obtain ⟨set, lookup, rfl, -⟩ := hextends
    exact hkey
  intro name hd
  rw [List.find?_append, find?_summariesOf_concat]
  have hbefore := h name hd
  generalize hfirst : specs.find? (·.name = name) = first at hbefore ⊢
  generalize Keyed.find? name (summariesOf (zones.map .ok)) = found at hbefore ⊢
  cases hbefore with
  | some hleft =>
    obtain ⟨other, ho, hother⟩ := hleft
    exact .some ⟨other, List.mem_append_left _ ho, hother⟩
  | none =>
    rw [Option.none_or, Option.none_or, List.find?_singleton]
    by_cases heq : spec.name = name
    · have hnew : spec.isFirstDelegated file specs = true := by
        rw [ZoneSpec.isFirstDelegated, decide_eq_true_eq]
        refine ⟨heq ▸ hd, fun hmem => ?_⟩
        obtain ⟨other, ho, hsame⟩ := List.mem_map.mp hmem
        exact List.find?_eq_none.mp hfirst other ho (decide_eq_true (hsame.trans heq))
      have hfound : Keyed.find? name (summaryOf? (.ok zone)).toList = some zone.knownSummary := by
        rw [summaryOf?_of_known (hknown hnew)]
        simp [Keyed.find?, hname, heq]
      rw [if_pos (decide_eq_true heq), hfound]
      exact .some ⟨zone, by simp, ⟨calls, hnew ▸ halone⟩, hknown hnew, hsigned, rfl⟩
    · rw [if_neg (by simpa using heq), find?_summaryOf?_of_ne (hname ▸ heq)]
      exact .none

theorem groupRuns {calls : List (Except Fault Call)} {more : List ZoneSpec} {built : List Zone}
    (h : FirstsLeave file specs zones) (hruns : file.groupRuns calls specs more = built.map .ok) :
    FirstsLeave file (specs ++ more) (zones ++ built) := by
  induction more generalizing specs zones built with
  | nil =>
    obtain rfl := List.map_eq_nil_iff.mp hruns.symm
    simpa using h
  | cons spec rest ih =>
    rw [DeploymentFile.groupRuns] at hruns
    obtain ⟨zone, others, rfl, halone, hothers⟩ := List.map_eq_cons_iff.mp hruns.symm
    have hnext := ih (h.concat halone.symm) hothers.symm
    rwa [List.append_assoc, List.append_assoc] at hnext

theorem runsAfter {servers : List Server} {groups : List GroupSpec} {built : List Zone}
    (h : FirstsLeave file specs zones) (hruns : file.runsAfter servers specs (zones.map .ok) groups = built.map .ok) :
    FirstsLeave file (specs ++ groups.flatMap GroupSpec.zones) (zones ++ built) := by
  induction groups generalizing specs zones built with
  | nil =>
    obtain rfl := List.map_eq_nil_iff.mp hruns.symm
    simpa using h
  | cons group rest ih =>
    rw [DeploymentFile.runsAfter] at hruns
    obtain ⟨first, others, rfl, hfirst, hothers⟩ := List.map_eq_append_iff.mp hruns.symm
    rw [← hfirst, ← List.map_append] at hothers
    have hnext := ih (h.groupRuns hfirst.symm) hothers.symm
    rwa [List.append_assoc, List.append_assoc, ← List.flatMap_cons] at hnext

end FirstsLeave

/-! ### Delegations -/

namespace Zone

theorem Extends.recordResource_eq {zone next : Zone} (h : zone.Extends next) (record : Record) :
    next.recordResource record = zone.recordResource record := by
  obtain ⟨set, lookup, rfl, -⟩ := h
  rfl

theorem Extends.mem {zone next : Zone} {resource : Resource} (h : zone.Extends next)
    (hr : resource ∈ zone.resources.toList) : resource ∈ next.resources.toList := by
  obtain ⟨set, lookup, rfl, hprefix⟩ := h
  exact hprefix.subset hr

theorem recordResource_mem_of_each_ask {calls : List (Except Fault Call)} {zone next : Zone} {record : Record}
    (hrun : Step.each ask calls zone = .ok () next) (hmem : .ok (.record record) ∈ calls) :
    next.recordResource record ∈ next.resources.toList := by
  obtain ⟨between, declared, after, hcall, hrest⟩ := Step.each_ok_of_mem hrun hmem
  obtain ⟨records, hplan, hdeclare⟩ := Call.perform_eq_ok.mp hcall
  cases hplan
  obtain ⟨-, set, rfl, hset⟩ := each_declare_ok hdeclare
  have hextends := extends_each_ask after _ _ _ hrest
  rw [hextends.recordResource_eq]
  apply hextends.mem
  change between.recordResource record ∈ set.toList
  rw [hset]
  simp

/-- An entry that refuses is never passed. -/
theorem not_mem_of_each_ask {calls : List (Except Fault Call)} {zone next : Zone} {fault : Fault}
    (hrun : Step.each ask calls zone = .ok () next) : .error fault ∉ calls := by
  intro hmem
  obtain ⟨between, declared, after, hcall, -⟩ := Step.each_ok_of_mem hrun hmem
  cases hcall

theorem find?_values_recordResource (record : Record) (zone : Zone) (htype : record.type ≠ .txt) :
    ∃ key, Published.valuesKey? (zone.recordResource record).kind = some key ∧
      Keyed.find? key (zone.recordResource record).attributes = some record.values.toData := by
  cases hbackend : zone.backend with
  | livedns =>
    rw [recordResource_of_livedns hbackend]
    exact ⟨"values", rfl, by simp [livednsRecord, livednsValues, htype]⟩
  | route53 =>
    rw [recordResource_of_route53 hbackend]
    exact ⟨"records", by simp [route53Record, resource, Published.valuesKey?], by simp [route53Record]⟩

end Zone

namespace DeploymentFile

variable {file : DeploymentFile}

/-- What a delegation asks for, once its child is known. -/
theorem mem_calls_of_delegation {servers : List Server} {kept : Keyed ZoneSummary} {group : GroupSpec}
    {delegation : DelegationSpec} (hdelegation : delegation ∈ group.delegations) {entry : Except Fault Call}
    (hentry : entry ∈ delegation.calls kept) : entry ∈ group.calls servers kept :=
  List.mem_append_right _ (List.mem_flatMap.mpr ⟨delegation, hdelegation, hentry⟩)

end DeploymentFile

def ZoneSpec.path (spec : ZoneSpec) : String := spec.backend.pathStart ++ "-" ++ spec.name

namespace ZoneSpec

variable {file : DeploymentFile} {spec : ZoneSpec} {calls : List (Except Fault Call)} {lookUp : Bool} {zone : Zone}

theorem path_of_alone (h : spec.alone file calls lookUp = .ok zone) : zone.path = spec.path := by
  obtain ⟨hbackend, hname⟩ := named_of_alone h
  rw [Zone.path, path, hbackend, hname]

theorem recordResource_mem {record : Record} (h : spec.alone file calls lookUp = .ok zone)
    (hasked : .ok (.record record) ∈ calls) : zone.recordResource record ∈ zone.resources.toList := by
  obtain ⟨prepared, called, -, hcalled, hlast⟩ := alone_eq_ok.mp h
  have hmem := Zone.recordResource_mem_of_each_ask hcalled hasked
  rcases hlast with ⟨-, servers, hservers⟩ | ⟨-, rfl⟩
  · have hextends := Zone.extends_nameservers _ _ _ hservers
    rw [hextends.recordResource_eq]
    exact hextends.mem hmem
  · exact hmem

end ZoneSpec

/-- Whether some resources hold the record of a delegation, with values made of a reference
to a resource before it. -/
def Delegates (resources : List Resource) (spec : ZoneSpec) (type : RecordType) (label : String)
    (values : AttrRef → Values) : Prop :=
  ∃ earlier resource later, resources = earlier ++ resource :: later ∧
    resource.path = spec.path ++ "/" ++ (type.name ++ "-" ++ label) ∧
    ∃ other ∈ earlier, ∃ name key, Published.valuesKey? resource.kind = some key ∧
      Keyed.find? key resource.attributes = some (values (other.reference name)).toData

/-- A record that a zone was asked for, with a reference to a resource before the zone. -/
theorem delegates_of_asked {file : DeploymentFile} {spec : ZoneSpec} {calls : List (Except Fault Call)}
    {lookUp : Bool} {zone : Zone} {earlier later : List Resource} {type : RecordType} {label : String}
    {values : AttrRef → Values} {other : Resource} {name : String}
    (halone : spec.alone file calls lookUp = .ok zone) (htype : type ≠ .txt)
    (hasked : .ok (.record ⟨label, type, values (other.reference name), {}⟩) ∈ calls) (hother : other ∈ earlier) :
    Delegates (earlier ++ (zone.resources.toList ++ later)) spec type label values := by
  have hmem := ZoneSpec.recordResource_mem halone hasked
  obtain ⟨before, after, hsplit⟩ := List.append_of_mem hmem
  obtain ⟨key, hkey, hvalues⟩ := Zone.find?_values_recordResource ⟨label, type, values _, {}⟩ zone htype
  refine ⟨earlier ++ before, _, after ++ later, ?_, ?_, other, List.mem_append_left _ hother, name, key, hkey,
    hvalues⟩
  · rw [hsplit]
    simp
  · rw [Zone.path_recordResource, Zone.pathOf, ZoneSpec.path_of_alone halone]
    rfl

namespace DeploymentFile

variable {file : DeploymentFile} {servers : List Server} {before after : List GroupSpec} {group : GroupSpec}

/-- The runs of a file at one zone of one group: what was built before, and the zone. -/
theorem runs_split {zones : List Zone} {spec : ZoneSpec} (hgroups : file.groups = before ++ group :: after)
    (hspec : spec ∈ group.zones) (hruns : file.runs servers = zones.map .ok) :
    ∃ earlier others zone later lookUp, zones = earlier ++ (others ++ zone :: later) ∧
      file.runsAfter servers [] [] before = earlier.map .ok ∧
      spec.alone file (group.calls servers (summariesOf (earlier.map .ok))) lookUp = .ok zone := by
  obtain ⟨left, right, hzones⟩ := List.append_of_mem hspec
  rw [runs, hgroups, runsAfter_append, runsAfter, hzones, groupRuns_append, groupRuns] at hruns
  simp only [List.nil_append] at hruns
  obtain ⟨earlier, rest, rfl, hearlier, hrest⟩ := List.map_eq_append_iff.mp hruns.symm
  rw [← hearlier] at hrest
  rw [List.append_assoc, List.cons_append] at hrest
  obtain ⟨others, rest, rfl, -, hrest⟩ := List.map_eq_append_iff.mp hrest
  obtain ⟨zone, later, rfl, hzone, -⟩ := List.map_eq_cons_iff.mp hrest
  exact ⟨earlier, others, zone, later, _, rfl, hearlier.symm, hzone.symm⟩

/-- A zone of a group lies in the stack after the zones of the groups before, and is built
by itself with what these leave. -/
theorem member_of_build {stack : Stack} {spec : ZoneSpec} (h : file.build servers = .ok stack)
    (hgroups : file.groups = before ++ group :: after) (hspec : spec ∈ group.zones) :
    ∃ (zones : List Zone) (zone : Zone) (lookUp : Bool) (earlier later : List Resource),
      file.runsAfter servers [] [] before = zones.map .ok ∧
      spec.alone file (group.calls servers (summariesOf (zones.map .ok))) lookUp = .ok zone ∧
      stack.resources.toList = earlier ++ (zone.resources.toList ++ later) ∧
      ∀ known ∈ zones, (∃ outer, known.Grounded outer) ∧ ∀ resource ∈ known.resources.toList, resource ∈ earlier := by
  obtain ⟨aliases, all, haliases, hruns, hresources, -⟩ := build_ok h
  obtain ⟨zones, others, zone, later, lookUp, rfl, hzones, halone⟩ := runs_split hgroups hspec hruns
  refine ⟨zones, zone, lookUp,
    aliases ++ zones.flatMap (·.resources.toList) ++ others.flatMap (·.resources.toList),
    later.flatMap (·.resources.toList), hzones, halone, ?_, fun known hmem => ⟨⟨aliases, ?_⟩, fun resource hr => ?_⟩⟩
  · rw [hresources, List.flatMap_append, List.flatMap_append, List.flatMap_cons]
    simp only [List.append_assoc]
  · exact grounded_of_mem_runs haliases (forall₂_of_runs hruns) (fun _ => id) known (List.mem_append_left _ hmem)
  · exact List.mem_append_left _ (List.mem_append_right _ (List.mem_flatMap.mpr ⟨known, hmem, hr⟩))

/-- The child of a delegation with which a zone was built is the first zone of its name in
the groups before, and the summary is what that zone left. -/
theorem exists_child {zones : List Zone} {delegation : DelegationSpec} {spec : ZoneSpec} {zone : Zone}
    {lookUp : Bool} (hgroups : file.groups = before ++ group :: after) (hdelegation : delegation ∈ group.delegations)
    (hzones : file.runsAfter servers [] [] before = zones.map .ok)
    (halone : spec.alone file (group.calls servers (summariesOf (zones.map .ok))) lookUp = .ok zone) :
    ∃ child summary, (before.flatMap GroupSpec.zones).find? (·.name = delegation.zone) = some child ∧
      Keyed.find? delegation.zone (summariesOf (zones.map .ok)) = some summary ∧
      LeftBy file zones child summary := by
  have hd : delegation.zone ∈ file.delegated := by
    refine List.mem_flatMap.mpr ⟨group, ?_, List.mem_map_of_mem hdelegation⟩
    rw [hgroups]
    exact List.mem_append_right _ (List.mem_cons_self ..)
  have hleave := (FirstsLeave.nil file).runsAfter hzones delegation.zone hd
  rw [List.nil_append, List.nil_append] at hleave
  cases hfound : Keyed.find? delegation.zone (summariesOf (zones.map .ok)) with
  | none =>
    -- without a summary the delegation would have refused on the zone
    obtain ⟨prepared, called, -, hcalled, -⟩ := ZoneSpec.alone_eq_ok.mp halone
    have hrefuses : .error (.deployment (.undeclaredChild delegation.label delegation.zone)) ∈
        delegation.calls (summariesOf (zones.map .ok)) := by
      rw [DelegationSpec.calls, hfound]
      exact List.mem_singleton.mpr rfl
    exact absurd (mem_calls_of_delegation hdelegation hrefuses) (Zone.not_mem_of_each_ask hcalled)
  | some summary =>
    rw [hfound] at hleave
    generalize (before.flatMap GroupSpec.zones).find? (·.name = delegation.zone) = first at hleave ⊢
    cases hleave with
    | some hleft => exact ⟨_, summary, rfl, rfl, hleft⟩

/-- A delegation refers to resources of its child, which lie before it. -/
theorem delegates_of_build {stack : Stack} {delegation : DelegationSpec} {spec : ZoneSpec}
    (h : file.build servers = .ok stack) (hgroups : file.groups = before ++ group :: after)
    (hdelegation : delegation ∈ group.delegations) (hspec : spec ∈ group.zones) :
    ∃ child, (before.flatMap GroupSpec.zones).find? (·.name = delegation.zone) = some child ∧
      Delegates stack.resources.toList spec .ns delegation.label (fun ref => (Nameservers.reference ref).fqdnValues) ∧
      (child.sign = true →
        Delegates stack.resources.toList spec .ds delegation.label (fun ref => .single ref.interpolate)) := by
  obtain ⟨zones, zone, lookUp, earlier, later, hzones, halone, hstack, hearlier⟩ := member_of_build h hgroups hspec
  obtain ⟨child, summary, hchild, hfound, known, hmem, -, hknown, hsigned, rfl⟩ :=
    exists_child hgroups hdelegation hzones halone
  obtain ⟨⟨outer, hgrounded⟩, hbefore⟩ := hearlier known hmem
  have hcalls : ∀ entry ∈ delegation.calls (summariesOf (zones.map .ok)),
      entry ∈ group.calls servers (summariesOf (zones.map .ok)) :=
    fun entry hentry => mem_calls_of_delegation hdelegation hentry
  rw [DelegationSpec.calls, hfound] at hcalls
  rw [hstack]
  refine ⟨child, hchild, ?_, fun hsign => ?_⟩
  · obtain ⟨other, ho, name, href⟩ := Zone.exists_nameserversRef hgrounded hknown
    have hasked := hcalls (.ok (.record ⟨delegation.label, .ns,
      (Nameservers.reference (other.reference name)).fqdnValues, {}⟩))
      (by simp [Call.delegate, Zone.knownSummary, href])
    exact delegates_of_asked halone (by decide) hasked (hbefore other ho)
  · obtain ⟨key, hkey⟩ := Option.isSome_iff_exists.mp (hsigned.trans hsign)
    obtain ⟨other, ho, algorithm, ds, rfl⟩ := hgrounded.key key hkey
    have hasked := hcalls (.ok (.record ⟨delegation.label, .ds, .single (other.reference ds).interpolate, {}⟩))
      (by simp [Call.delegate, Zone.knownSummary, hkey, Zone.keyOf])
    exact delegates_of_asked halone (by decide) hasked (hbefore other ho)

/-! ### Whole builds -/

/-- The references of a deployment that builds: those of its resources, those that its
delegations add, and those of its outputs. -/
theorem references_earlier {stack : Stack} (h : file.build servers = .ok stack) :
    (∀ earlier resource later, stack.resources.toList = earlier ++ resource :: later → resource.Grounded earlier) ∧
    (∀ before group after, file.groups = before ++ group :: after →
      ∀ delegation ∈ group.delegations, ∀ spec ∈ group.zones,
        ∃ child, (before.flatMap GroupSpec.zones).find? (·.name = delegation.zone) = some child ∧
          Delegates stack.resources.toList spec .ns delegation.label
            (fun ref => (Nameservers.reference ref).fqdnValues) ∧
          (child.sign = true →
            Delegates stack.resources.toList spec .ds delegation.label (fun ref => .single ref.interpolate))) ∧
    ∀ output ∈ stack.outputs, ∃ resource ∈ stack.resources.toList, ∃ name,
      output.2 = .text (resource.reference name).interpolate := by
  refine ⟨?_, ?_, ?_⟩
  · intro earlier resource later hsplit
    have hall := groundedAll_stack h
    rw [hsplit] at hall
    exact hall.grounded
  · intro before group after hgroups delegation hdelegation spec hspec
    exact delegates_of_build h hgroups hdelegation hspec
  · intro output houtput
    obtain ⟨aliases, zones, haliases, hruns, hresources, hperm⟩ := build_ok h
    obtain ⟨resource, hr, found⟩ := refersTo_of_mem_outputs haliases (forall₂_of_runs hruns)
      (hperm.mem_iff.mp houtput)
    refine ⟨resource, ?_, found⟩
    rw [hresources]
    exact List.mem_append_right _ hr

theorem references_earlier_acme :
    ∃ stack, sampleFile.build [] = .ok stack ∧
      (∀ earlier resource later, stack.resources.toList = earlier ++ resource :: later → resource.Grounded earlier) ∧
      (∃ parent, Delegates stack.resources.toList parent .ns "acme"
          (fun ref => (Nameservers.reference ref).fqdnValues) ∧
        Delegates stack.resources.toList parent .ds "acme" (fun ref => .single ref.interpolate)) ∧
      ∀ output ∈ stack.outputs, ∃ resource ∈ stack.resources.toList, ∃ name,
        output.2 = .text (resource.reference name).interpolate := by
  obtain ⟨stack, h⟩ := exists_build_sampleFile
  obtain ⟨hgrounded, hdelegates, houtputs⟩ := references_earlier h
  obtain ⟨child, hchild, hns, hds⟩ :=
    hdelegates [_] _ [] rfl _ (List.mem_singleton.mpr rfl) _ (List.mem_singleton.mpr rfl)
  have hsign : child.sign = true := by
    obtain rfl := Option.some.inj hchild
    rfl
  exact ⟨stack, h, hgrounded, ⟨_, hns, hds hsign⟩, houtputs⟩

end DeploymentFile

end ZoneGraph
