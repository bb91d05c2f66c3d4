import ZoneGraph.Deployment.Load
import ZoneGraph.Proofs.Form.Written
import ZoneGraph.Proofs.Runs

/-! What is read back of deployment files that were written. A file keeps its providers, its
keys and its settings in the order of their names, and no setting has the name under which
the plugin is written. Then the file comes back, with its expressions as texts. A file that
was read is kept like this and has no expressions, so it comes back as it is. -/
namespace ZoneGraph

open Reading

/-! ### Providers and keys -/

theorem SigningKeySpec.gives (spec : SigningKeySpec) : SigningKeySpec.reading.Gives spec.toData spec := by
  intro dialect
  simp only [SigningKeySpec.reading, Option.bind_eq_bind, Option.bind_eq_some_iff]
  exact ⟨_, Parts.readClosed_table dialect (by simp) (by simp),
    _, Parts.required_of_gives rfl (gives_text spec.provider),
    _, Parts.required_of_gives rfl (gives_text spec.keyAlias),
    _, Parts.required_of_gives rfl (gives_text spec.keyId), rfl⟩

namespace ProviderSpec

/-- Whether settings are kept in order, and none of them where the plugin is written. -/
structure WellKept (spec : ProviderSpec) : Prop where
  sorted : spec.settings.keys.Pairwise (· < ·)
  plain : "kind" ∉ spec.settings.keys

variable {spec : ProviderSpec}

/-- The settings are what is left of the table without the plugin. -/
theorem WellKept.gives (h : spec.WellKept) : ProviderSpec.reading.Gives spec.toData spec := by
  intro dialect
  let settings := Keyed.mapValues Data.text spec.settings
  have hkeys : settings.keys = spec.settings.keys := Keyed.keys_mapValues Data.text spec.settings
  have hsorted : (Keyed.insert "kind" spec.kind.toData settings).keys.Pairwise (· < ·) :=
    Keyed.sorted_insert (hkeys ▸ h.sorted)
  have hkind : Keyed.find? "kind" (Keyed.insert "kind" spec.kind.toData settings) = some spec.kind.toData := by
    rw [Keyed.find?_insert, if_pos rfl]
  have hothers : (Keyed.insert "kind" spec.kind.toData settings).filter (fun field => field.1 ≠ "kind") = settings := by
    rw [Keyed.filter_insert, List.filter_eq_self]
    intro field hfield
    refine decide_eq_true fun hname => h.plain ?_
    rw [← hkeys, ← hname]
    exact List.mem_map_of_mem hfield
  simp only [ProviderSpec.reading, toData, Option.bind_eq_bind, Option.bind_eq_some_iff]
  refine ⟨_, Parts.ofFields_of_nodup _ dialect (Keyed.nodup_keys hsorted),
    _, Parts.required_of_gives hkind spec.kind.gives, _, ?_, rfl⟩
  rw [hothers]
  exact gives_settings h.sorted .setAside

theorem wellKept_of_reading {dialect : Dialect} {data : Data} (h : ProviderSpec.reading dialect data = some spec) :
    spec.WellKept := by
  cases data with
  | table fields =>
    simp only [ProviderSpec.reading, Option.bind_eq_bind, Option.bind_eq_some_iff] at h
    obtain ⟨own, -, kind, -, settings, hsettings, h⟩ := h
    cases h
    refine ⟨Data.keyed?_sorted hsettings, fun hkind => ?_⟩
    obtain ⟨setting, hsetting, hname⟩ := List.mem_map.mp hkind
    obtain ⟨_, ⟨⟩, hmem⟩ := Data.keyed?_mem hsettings
    obtain ⟨field, hfield, hsame, -⟩ := hmem setting hsetting
    exact of_decide_eq_true (List.mem_filter.mp hfield).2 (hsame.trans hname)
  | null | bool | int | real | text | list | broken => cases h

end ProviderSpec

/-! ### Groups -/

theorem Backend.gives (backend : Backend) : Backend.reading.Gives backend.toData backend :=
  gives_case (by cases backend <;> decide)

theorem RegistrarSpec.gives (spec : RegistrarSpec) : RegistrarSpec.reading.Gives spec.toData spec := by
  intro dialect
  simp only [RegistrarSpec.reading, Option.bind_eq_bind, Option.bind_eq_some_iff]
  exact ⟨_, Parts.readClosed_table dialect (by simp) (by simp),
    _, Parts.required_of_gives rfl (gives_text spec.provider),
    _, Parts.withDefault_of_gives rfl (gives_bool spec.dnssec), rfl⟩

theorem ZoneSpec.gives (spec : ZoneSpec) : ZoneSpec.reading.Gives spec.toData spec := by
  intro dialect
  simp only [ZoneSpec.reading, Option.bind_eq_bind, Option.bind_eq_some_iff]
  exact ⟨_, Parts.readClosed_table dialect (by simp) (by simp [partNames]),
    _, Parts.required_of_gives rfl spec.backend.gives,
    _, Parts.required_of_gives rfl (gives_text spec.name),
    _, Parts.required_of_gives rfl (gives_text spec.provider),
    _, Parts.withDefault_of_gives rfl (gives_bool spec.sign),
    _, Parts.optional_of_gives rfl (gives_optionalText spec.signingKey),
    _, Parts.optional_of_gives rfl (gives_option RegistrarSpec.gives nofun),
    _, Parts.withDefault_of_gives rfl (gives_texts spec.allowUsers),
    _, Parts.optional_of_gives rfl (gives_optionalText spec.outputZoneId), rfl⟩

theorem DelegationSpec.gives (spec : DelegationSpec) : DelegationSpec.reading.Gives spec.toData spec := by
  intro dialect
  simp only [DelegationSpec.reading, Option.bind_eq_bind, Option.bind_eq_some_iff]
  exact ⟨_, Parts.readClosed_table dialect (by simp) (by simp),
    _, Parts.required_of_gives rfl (gives_text spec.label),
    _, Parts.required_of_gives rfl (gives_text spec.zone), rfl⟩

namespace RecordSpec

def readBack (spec : RecordSpec) : RecordSpec := { spec with values := spec.values.readBack }

theorem gives (spec : RecordSpec) : RecordSpec.reading.Gives spec.toData spec.readBack := by
  intro dialect
  simp only [RecordSpec.reading, Option.bind_eq_bind, Option.bind_eq_some_iff]
  exact ⟨_, Parts.readClosed_table dialect (by simp) (by simp [partNames]),
    _, Parts.required_of_gives rfl (gives_text spec.name),
    _, Parts.optional_of_gives rfl (gives_option RecordType.gives nofun),
    _, Parts.withDefault_of_gives rfl spec.values.gives,
    _, Parts.optional_of_gives rfl (gives_optionalText spec.serversTag),
    _, Parts.optional_of_gives rfl (gives_option gives_word nofun), rfl⟩

theorem readBack_of_reading {dialect : Dialect} {data : Data} {spec : RecordSpec}
    (h : RecordSpec.reading dialect data = some spec) : spec.readBack = spec := by
  simp only [reading, Option.bind_eq_bind, Option.bind_eq_some_iff] at h
  obtain ⟨parts, -, name, -, type, -, values, hvalues, serversTag, -, ttl, -, hspec⟩ := h
  cases hspec
  have hback : values.readBack = values := by
    rcases Parts.withDefault_eq_some hvalues with rfl | ⟨dialect, data, hread⟩
    · rfl
    · exact Values.readBack_of_reading hread
  rw [readBack, hback]

end RecordSpec

namespace GroupSpec

def readBack (spec : GroupSpec) : GroupSpec := { spec with records := spec.records.map RecordSpec.readBack }

theorem gives (spec : GroupSpec) : GroupSpec.reading.Gives spec.toData spec.readBack := by
  intro dialect
  simp only [GroupSpec.reading, Option.bind_eq_bind, Option.bind_eq_some_iff]
  exact ⟨_, Parts.readClosed_table dialect (by simp) (by simp [partNames]),
    _, Parts.required_of_gives rfl (gives_list_self fun zone _ => zone.gives),
    _, Parts.withDefault_of_gives rfl (gives_texts spec.www),
    _, Parts.optional_of_gives rfl (gives_option gives_texts nofun),
    _, Parts.withDefault_of_gives rfl (gives_bool spec.mailServices),
    _, Parts.withDefault_of_gives rfl (gives_bool spec.servers),
    _, Parts.withDefault_of_gives rfl (gives_list fun record _ => record.gives),
    _, Parts.withDefault_of_gives rfl (gives_list_self fun delegation _ => delegation.gives), rfl⟩

theorem readBack_of_reading {dialect : Dialect} {data : Data} {spec : GroupSpec}
    (h : GroupSpec.reading dialect data = some spec) : spec.readBack = spec := by
  simp only [reading, Option.bind_eq_bind, Option.bind_eq_some_iff] at h
  obtain ⟨parts, -, zones, -, www, -, mail, -, mailServices, -, servers, -, records, hrecords, delegations, -,
    hspec⟩ := h
  cases hspec
  have hback : records.map RecordSpec.readBack = records :=
    Parts.map_withDefault hrecords fun _ _ _ => RecordSpec.readBack_of_reading
  rw [readBack, hback]

end GroupSpec

/-! ### Files -/

namespace DeploymentFile

variable {file : DeploymentFile} {dialect : Dialect} {data : Data}

/-- Whether a file is kept in the order of names. -/
structure WellKept (file : DeploymentFile) : Prop where
  providers : file.providers.keys.Pairwise (· < ·)
  settings : ∀ entry ∈ file.providers, entry.2.WellKept
  signingKeys : file.signingKeys.keys.Pairwise (· < ·)

def readBack (file : DeploymentFile) : DeploymentFile := { file with groups := file.groups.map GroupSpec.readBack }

theorem WellKept.gives (h : file.WellKept) : DeploymentFile.reading.Gives file.toData file.readBack := by
  intro dialect
  simp only [DeploymentFile.reading, Option.bind_eq_bind, Option.bind_eq_some_iff]
  exact ⟨_, Parts.read_table _ dialect (by simp),
    _, Parts.withDefault_of_gives rfl (gives_text file.name),
    _, Parts.required_of_gives rfl file.defaults.gives,
    _, Parts.withDefault_of_gives rfl (gives_keyed h.providers fun entry hentry => (h.settings entry hentry).gives),
    _, Parts.withDefault_of_gives rfl (gives_keyed h.signingKeys fun entry _ => entry.2.gives),
    _, Parts.withDefault_of_gives rfl (gives_list_self fun server _ => server.gives),
    _, Parts.optional_of_gives rfl (gives_optionalText file.serversFile),
    _, Parts.withDefault_of_gives rfl (gives_list fun group _ => group.gives), rfl⟩

theorem wellKept_of_reading (h : DeploymentFile.reading dialect data = some file) : file.WellKept := by
  simp only [reading, Option.bind_eq_bind, Option.bind_eq_some_iff] at h
  obtain ⟨parts, -, name, -, defaults, -, providers, hproviders, signingKeys, hkeys, servers, -, serversFile, -,
    groups, -, hfile⟩ := h
  cases hfile
  refine ⟨Parts.sorted_withDefault hproviders, ?_, Parts.sorted_withDefault hkeys⟩
  rcases Parts.withDefault_eq_some hproviders with rfl | ⟨dialect, data, hread⟩
  · simp
  · intro entry hentry
    obtain ⟨fields, -, hmem⟩ := Data.keyed?_mem hread
    obtain ⟨field, -, -, hspec⟩ := hmem entry hentry
    exact ProviderSpec.wellKept_of_reading hspec

theorem signingKeys_sorted (h : DeploymentFile.reading dialect data = some file) :
    file.signingKeys.keys.Pairwise (· < ·) := (wellKept_of_reading h).signingKeys

/-- A file that was read has no expressions, so it comes back as it is. -/
theorem readBack_of_reading (h : DeploymentFile.reading dialect data = some file) : file.readBack = file := by
  simp only [reading, Option.bind_eq_bind, Option.bind_eq_some_iff] at h
  obtain ⟨parts, -, name, -, defaults, -, providers, -, signingKeys, -, servers, -, serversFile, -, groups, hgroups,
    hfile⟩ := h
  cases hfile
  have hback : groups.map GroupSpec.readBack = groups :=
    Parts.map_withDefault hgroups fun _ _ _ => GroupSpec.readBack_of_reading
  rw [readBack, hback]

theorem gives_of_reading (h : DeploymentFile.reading dialect data = some file) :
    DeploymentFile.reading.Gives file.toData file := by
  have hgives := (wellKept_of_reading h).gives
  rwa [readBack_of_reading h] at hgives

theorem exists_reading_of_text {text : String} {deployment : Deployment} (h : Deployment.ofText text = .ok deployment) :
    ∃ data, DeploymentFile.reading .toml data = some deployment.file := by
  unfold Deployment.ofText at h
  split at h
  · rename_i file hread
    cases h
    obtain ⟨data, -, hread⟩ := Option.bind_eq_some_iff.mp hread
    exact ⟨data, hread⟩
  · cases h

/-- Values that were written and what is read back of them. Settings are kept in the order of
their names, as all tables are. -/
theorem written_read_back :
    (∀ record : Record,
      Record.reading.Gives record.toData { record with values := record.values.readBack } ∧
      (∀ values, record.values = .list values → Record.reading.Gives record.toData record)) ∧
    (∀ server : Server, Server.reading.Gives server.toData server) ∧
    (∀ provider : Provider, provider.settings.keys.Pairwise (· < ·) →
      Provider.reading.Gives provider.toData provider) ∧
    (∀ ref : AttrRef, AttrRef.reading.Gives ref.toData ref) ∧
    (∀ key : SigningKey, SigningKey.reading.Gives key.toData key) ∧
    (∀ servers : Nameservers, Nameservers.reading.Gives servers.toForm servers) ∧
    (∀ summary : ZoneSummary, ZoneSummary.reading.Gives summary.toData summary) ∧
    (∀ defaults : ZoneDefaults, ZoneDefaults.reading.Gives defaults.toData defaults) ∧
    (∀ file : DeploymentFile, file.WellKept → DeploymentFile.reading.Gives file.toData file.readBack) ∧
    (∀ dialect data (file : DeploymentFile), DeploymentFile.reading dialect data = some file →
      DeploymentFile.reading.Gives file.toData file) ∧
    ∀ text deployment, Deployment.ofText text = .ok deployment →
      DeploymentFile.reading.Gives deployment.file.toData deployment.file := by
  refine ⟨fun record => ⟨record.gives, ?_⟩, Server.gives, fun _ => Provider.gives, AttrRef.gives, SigningKey.gives,
    Nameservers.gives, ZoneSummary.gives, ZoneDefaults.gives, fun _ => WellKept.gives,
    fun _ _ _ => gives_of_reading, ?_⟩
  · intro values hvalues
    have hgives := record.gives
    have hback : record.readBack = record := by
      rw [Record.readBack, hvalues, Values.readBack, ← hvalues]
    rwa [hback] at hgives
  · intro text deployment h
    obtain ⟨data, hread⟩ := exists_reading_of_text h
    exact gives_of_reading hread

def sampleProviders : Keyed ProviderSpec := [("vb", ⟨.gandi, [("sharing", "luffy"), ("token", "secret")]⟩)]

/-- A file with this provider, whose settings stand in another order. -/
def sampleText : String :=
  "[defaults]\nacme_root = \"luffy.cx\"\n" ++
  "[providers.vb]\nkind = \"gandi\"\ntoken = \"secret\"\nsharing = \"luffy\"\n"

def sampleWritten (values : Values) : DeploymentFile where
  defaults := { acmeRoot := "luffy.cx" }
  providers := sampleProviders
  groups := [{ zones := [⟨.livedns, "luffy.cx", "vb", false, none, none, [], none⟩],
               records := [⟨"www", some .a, values, none, some 60⟩] }]

/-- A text is read, written and read again, and an expression of a file comes back as a list. -/
theorem written_read_back_sample :
    (∃ deployment, Deployment.ofText sampleText = .ok deployment ∧ deployment.file.providers = sampleProviders ∧
      DeploymentFile.reading .json deployment.file.toData = some deployment.file) ∧
    DeploymentFile.reading .json (sampleWritten (.expression "local.addresses")).toData =
      some (sampleWritten (.list ["local.addresses"])) := by
  obtain ⟨-, -, -, -, -, -, -, -, hfile, -, htext⟩ := written_read_back
  constructor
  · have hproviders : (Deployment.ofText sampleText).toOption.map (fun deployment => deployment.file.providers) =
        some sampleProviders := by
      decide +kernel
    obtain ⟨deployment, h, hproviders⟩ := Step.exists_ok_of_toOption hproviders
    exact ⟨deployment, h, hproviders, htext _ _ h .json⟩
  · refine hfile _ ⟨by decide, ?_, by decide⟩ .json
    exact List.forall_mem_singleton.mpr ⟨by decide, by decide⟩

end DeploymentFile

end ZoneGraph
