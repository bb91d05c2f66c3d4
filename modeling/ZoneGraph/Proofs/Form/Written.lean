import ZoneGraph.Form.Deployment
import ZoneGraph.Proofs.Form.Parts
import Mathlib.Data.Option.Basic

/-! What is read back of values that were written: references, keys, nameservers, summaries,
defaults, servers, providers and records. All of them come back as they were, but for the
values of a record that are an expression. These are written as a bare text, which is read
as a list of that text alone. Settings and options share the table of what they belong to. -/
namespace ZoneGraph

open Reading

/-! ### References -/

theorem AttrRef.gives (ref : AttrRef) : AttrRef.reading.Gives ref.toData ref := by
  intro dialect
  simp only [AttrRef.reading, Option.bind_eq_bind, Option.bind_eq_some_iff]
  exact ⟨_, Parts.read_table _ dialect (by simp),
    _, Parts.required_of_gives rfl (gives_text ref.address),
    _, Parts.required_of_gives rfl (gives_text ref.name), rfl⟩

theorem SigningKey.gives (key : SigningKey) : SigningKey.reading.Gives key.toData key := by
  intro dialect
  simp only [SigningKey.reading, Option.bind_eq_bind, Option.bind_eq_some_iff]
  exact ⟨_, Parts.read_table _ dialect (by simp),
    _, Parts.required_of_gives rfl (gives_text key.publicKey),
    _, Parts.required_of_gives rfl (gives_text key.algorithm),
    _, Parts.required_of_gives rfl (gives_text key.dsRecord), rfl⟩

theorem Nameservers.gives (servers : Nameservers) : Nameservers.reading.Gives servers.toForm servers := by
  intro dialect
  cases servers with
  | hosts names => exact congrArg (Option.map hosts) (gives_texts names dialect)
  | reference ref => exact congrArg (Option.map reference) (ref.gives dialect)

theorem ZoneSummary.gives (summary : ZoneSummary) : ZoneSummary.reading.Gives summary.toData summary := by
  intro dialect
  simp only [ZoneSummary.reading, Option.bind_eq_bind, Option.bind_eq_some_iff]
  exact ⟨_, Parts.read_table _ dialect (by simp),
    _, Parts.required_of_gives rfl (gives_text summary.zone),
    _, Parts.required_of_gives rfl summary.nameservers.gives,
    _, Parts.optional_of_gives rfl (gives_optionalText summary.dsRecord), rfl⟩

theorem ZoneDefaults.gives (defaults : ZoneDefaults) : ZoneDefaults.reading.Gives defaults.toData defaults := by
  intro dialect
  simp only [ZoneDefaults.reading, Option.bind_eq_bind, Option.bind_eq_some_iff]
  exact ⟨_, Parts.read_table _ dialect (by simp),
    _, Parts.withDefault_of_gives rfl (gives_word defaults.defaultTtl),
    _, Parts.withDefault_of_gives rfl (gives_word defaults.webTtl),
    _, Parts.required_of_gives rfl (gives_text defaults.acmeRoot), rfl⟩

/-! ### Servers and providers -/

theorem Server.gives (server : Server) : Server.reading.Gives server.toData server := by
  intro dialect
  simp only [Server.reading, Option.bind_eq_bind, Option.bind_eq_some_iff]
  exact ⟨_, Parts.read_table _ dialect (by simp),
    _, Parts.required_of_gives rfl (gives_text server.name),
    _, Parts.withDefault_of_gives rfl (gives_optionalText server.ipv4),
    _, Parts.withDefault_of_gives rfl (gives_optionalText server.ipv6),
    _, Parts.withDefault_of_gives rfl (gives_text server.hardware),
    _, Parts.withDefault_of_gives rfl (gives_texts server.tags),
    _, Parts.withDefault_of_gives rfl (gives_bool server.disabled), rfl⟩

theorem ProviderKind.gives (kind : ProviderKind) : ProviderKind.reading.Gives kind.toData kind :=
  gives_case (by cases kind <;> decide)

theorem gives_settings {settings : Keyed String} (h : settings.keys.Pairwise (· < ·)) :
    text.keyed.Gives (settingsToData settings) settings :=
  gives_keyed h fun setting _ => gives_text setting.2

theorem Provider.gives {provider : Provider} (h : provider.settings.keys.Pairwise (· < ·)) :
    Provider.reading.Gives provider.toData provider := by
  intro dialect
  simp only [Provider.reading, Option.bind_eq_bind, Option.bind_eq_some_iff]
  exact ⟨_, Parts.read_table _ dialect (by simp),
    _, Parts.required_of_gives rfl provider.kind.gives,
    _, Parts.required_of_gives rfl (gives_text provider.name),
    _, Parts.withDefault_of_gives rfl (gives_settings h), rfl⟩

/-! ### Records -/

theorem RecordType.gives (type : RecordType) : RecordType.reading.Gives type.toData type :=
  gives_case (by cases type <;> decide)

namespace Values

/-- What values are read as once they were written: an expression is not told from a text. -/
def readBack : Values → Values
  | .list values => .list values
  | .expression text => .single text

theorem gives (values : Values) : Values.reading.Gives values.toData values.readBack := by
  intro dialect
  cases values with
  | list values => exact congrArg (Option.map list) (gives_texts values dialect)
  | expression text => rfl

theorem readBack_of_reading {dialect : Dialect} {data : Data} {values : Values}
    (h : Values.reading dialect data = some values) : values.readBack = values := by
  have hlist : ∃ items, values = .list items := by
    unfold Values.reading at h
    split at h
    · exact ⟨_, (Option.some.inj h).symm⟩
    · obtain ⟨items, -, rfl⟩ := Option.map_eq_some_iff.mp h
      exact ⟨items, rfl⟩
  obtain ⟨items, rfl⟩ := hlist
  rfl

end Values

theorem GeoScope.gives (scope : GeoScope) : GeoScope.reading.Gives (.text scope.name) scope :=
  gives_case (by cases scope <;> decide)

theorem GeoLocation.gives (location : GeoLocation) : GeoLocation.reading.Gives location.toData location := by
  intro dialect
  simp only [GeoLocation.reading, Option.bind_eq_bind, Option.bind_eq_some_iff]
  exact ⟨_, Parts.read_table _ dialect (by simp),
    _, Parts.required_of_gives rfl location.scope.gives,
    _, Parts.required_of_gives rfl (gives_text location.value), rfl⟩

theorem RoutingSelector.gives (routing : RoutingSelector) :
    RoutingSelector.reading.Gives routing.toData routing := by
  intro dialect
  simp only [RoutingSelector.reading, Option.bind_eq_bind, Option.bind_eq_some_iff]
  exact ⟨_, Parts.read_table _ dialect (by simp),
    _, Parts.required_of_gives rfl (gives_text routing.setIdentifier),
    _, Parts.required_of_gives rfl routing.geolocation.gives, rfl⟩

namespace RecordOptions

variable (options : RecordOptions)

theorem fieldsAreWhole_toFields : Data.fieldsAreWhole options.toFields = true := by
  obtain ⟨ttl, routing⟩ := options
  cases ttl <;> cases routing <;> rfl

theorem ofParts_toFields (dialect : Dialect) : ofParts ⟨dialect, false, options.toFields⟩ = some options := by
  simp only [ofParts, Option.bind_eq_bind, Option.bind_eq_some_iff]
  exact ⟨_, Parts.withDefault_of_gives rfl (gives_option gives_word nofun),
    _, Parts.withDefault_of_gives rfl (gives_option RoutingSelector.gives nofun), rfl⟩

end RecordOptions

namespace Record

/-- The record that is read once one was written. -/
def readBack (record : Record) : Record := { record with values := record.values.readBack }

/-- What is set aside of a record that was written are its options. -/
theorem gives (record : Record) : Record.reading.Gives record.toData record.readBack := by
  intro dialect
  have hothers : (("name", Data.text record.name) :: record.options.toFields ++
      [("type", record.type.toData), ("values", record.values.toData)]).filter (fun field => field.1 ∉ partNames) =
        record.options.toFields := by
    simp [partNames, RecordOptions.toFields]
  simp only [Record.reading, toData, Option.bind_eq_bind, Option.bind_eq_some_iff, hothers]
  refine ⟨_, Parts.ofFields_of_nodup _ dialect (by simp [RecordOptions.toFields]),
    _, Parts.required_of_gives rfl (gives_text record.name),
    _, Parts.required_of_gives rfl record.type.gives,
    _, Parts.required_of_gives rfl record.values.gives,
    (), by rw [RecordOptions.fieldsAreWhole_toFields]; rfl,
    _, ⟨_, Parts.ofFields_of_nodup _ _ (by simp [RecordOptions.toFields]), record.options.ofParts_toFields _⟩, rfl⟩

end Record

end ZoneGraph
