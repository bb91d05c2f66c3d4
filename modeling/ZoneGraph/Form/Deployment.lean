import ZoneGraph.Deployment.File
import ZoneGraph.Form.Inventory
import ZoneGraph.Form.Record
import ZoneGraph.Form.Reference

/-! The forms of deployment files and their parts. Only the file itself and its
providers may hold names that are not known. -/
namespace ZoneGraph

namespace Backend

def reading : Reading Backend := .case fun name => all.find? fun backend => backend.name = name

def toData (backend : Backend) : Data := .text backend.name

end Backend

namespace ProviderSpec

def toData (spec : ProviderSpec) : Data :=
  .table (Keyed.insert "kind" spec.kind.toData (Keyed.mapValues Data.text spec.settings))

def reading : Reading ProviderSpec
  | dialect, .table fields => do
    let own ← Parts.ofFields ["kind"] dialect fields
    let kind ← own.required "kind" ProviderKind.reading
    let settings ← Reading.text.keyed .setAside (.table (fields.filter fun field => field.1 ≠ "kind"))
    pure { kind, settings }
  | _, _ => none

end ProviderSpec

namespace SigningKeySpec

def toData (spec : SigningKeySpec) : Data :=
  .table [("alias", .text spec.keyAlias), ("provider", .text spec.provider),
    ("target_key_id", .text spec.keyId)]

def reading : Reading SigningKeySpec := fun dialect data => do
  let parts ← Parts.readClosed ["provider", "alias", "target_key_id"] dialect data
  let provider ← parts.required "provider" .text
  let keyAlias ← parts.required "alias" .text
  let keyId ← parts.required "target_key_id" .text
  pure { provider, keyAlias, keyId }

end SigningKeySpec

namespace RegistrarSpec

def toData (spec : RegistrarSpec) : Data :=
  .table [("dnssec", .bool spec.dnssec), ("provider", .text spec.provider)]

def reading : Reading RegistrarSpec := fun dialect data => do
  let parts ← Parts.readClosed ["provider", "dnssec"] dialect data
  let provider ← parts.required "provider" .text
  let dnssec ← parts.withDefault "dnssec" true .bool
  pure { provider, dnssec }

end RegistrarSpec

namespace ZoneSpec

/-- The names of the parts of a zone, in order. -/
def partNames : List String :=
  ["backend", "name", "provider", "sign", "signing_key", "registrar", "allow_users", "output_zone_id"]

def toData (spec : ZoneSpec) : Data :=
  .table [("allow_users", Data.texts spec.allowUsers), ("backend", spec.backend.toData),
    ("name", .text spec.name), ("output_zone_id", Data.ofOption .text spec.outputZoneId),
    ("provider", .text spec.provider), ("registrar", Data.ofOption RegistrarSpec.toData spec.registrar),
    ("sign", .bool spec.sign), ("signing_key", Data.ofOption .text spec.signingKey)]

/-- A backend, a name, a provider and whatever else is given. -/
def reading : Reading ZoneSpec := fun dialect data => do
  let parts ← Parts.readClosed partNames dialect data
  let backend ← parts.required "backend" Backend.reading
  let name ← parts.required "name" .text
  let provider ← parts.required "provider" .text
  let sign ← parts.withDefault "sign" false .bool
  let signingKey ← parts.optional "signing_key" .text
  let registrar ← parts.optional "registrar" RegistrarSpec.reading
  let allowUsers ← parts.withDefault "allow_users" [] Reading.text.list
  let outputZoneId ← parts.optional "output_zone_id" .text
  pure { backend, name, provider, sign, signingKey, registrar, allowUsers, outputZoneId }

end ZoneSpec

namespace RecordSpec

/-- The names of the parts of a record, in order. -/
def partNames : List String := ["name", "type", "values", "servers_tag", "ttl"]

def toData (spec : RecordSpec) : Data :=
  .table [("name", .text spec.name), ("servers_tag", Data.ofOption .text spec.serversTag),
    ("ttl", Data.ofOption RecordOptions.ofWord spec.ttl),
    ("type", Data.ofOption RecordType.toData spec.type), ("values", spec.values.toData)]

def reading : Reading RecordSpec := fun dialect data => do
  let parts ← Parts.readClosed partNames dialect data
  let name ← parts.required "name" .text
  let type ← parts.optional "type" RecordType.reading
  let values ← parts.withDefault "values" .empty Values.reading
  let serversTag ← parts.optional "servers_tag" .text
  let ttl ← parts.optional "ttl" .word
  pure { name, type, values, serversTag, ttl }

end RecordSpec

namespace DelegationSpec

def toData (spec : DelegationSpec) : Data :=
  .table [("label", .text spec.label), ("zone", .text spec.zone)]

def reading : Reading DelegationSpec := fun dialect data => do
  let parts ← Parts.readClosed ["label", "zone"] dialect data
  let label ← parts.required "label" .text
  let zone ← parts.required "zone" .text
  pure { label, zone }

end DelegationSpec

namespace GroupSpec

/-- The names of the parts of a group, in order. -/
def partNames : List String :=
  ["zones", "www", "fastmail_mx", "fastmail_services", "servers", "records", "delegations"]

def toData (spec : GroupSpec) : Data :=
  .table [("delegations", .list (spec.delegations.map DelegationSpec.toData)),
    ("fastmail_mx", Data.ofOption Data.texts spec.mail), ("fastmail_services", .bool spec.mailServices),
    ("records", .list (spec.records.map RecordSpec.toData)), ("servers", .bool spec.servers),
    ("www", Data.texts spec.www), ("zones", .list (spec.zones.map ZoneSpec.toData))]

def reading : Reading GroupSpec := fun dialect data => do
  let parts ← Parts.readClosed partNames dialect data
  let zones ← parts.required "zones" ZoneSpec.reading.list
  let www ← parts.withDefault "www" [] Reading.text.list
  let mail ← parts.optional "fastmail_mx" Reading.text.list
  let mailServices ← parts.withDefault "fastmail_services" false .bool
  let servers ← parts.withDefault "servers" false .bool
  let records ← parts.withDefault "records" [] RecordSpec.reading.list
  let delegations ← parts.withDefault "delegations" [] DelegationSpec.reading.list
  pure { zones, www, mail, mailServices, servers, records, delegations }

end GroupSpec

namespace DeploymentFile

/-- The names of the parts of a file, in order. -/
def partNames : List String :=
  ["name", "defaults", "providers", "signing_keys", "servers", "servers_file", "groups"]

def toData (file : DeploymentFile) : Data :=
  .table [("defaults", file.defaults.toData), ("groups", .list (file.groups.map GroupSpec.toData)),
    ("name", .text file.name),
    ("providers", .table (Keyed.mapValues ProviderSpec.toData file.providers)),
    ("servers", .list (file.servers.map Server.toData)),
    ("servers_file", Data.ofOption .text file.serversFile),
    ("signing_keys", .table (Keyed.mapValues SigningKeySpec.toData file.signingKeys))]

def reading : Reading DeploymentFile := fun dialect data => do
  let parts ← Parts.read partNames dialect data
  let name ← parts.withDefault "name" defaultStackName .text
  let defaults ← parts.required "defaults" ZoneDefaults.reading
  let providers ← parts.withDefault "providers" [] ProviderSpec.reading.keyed
  let signingKeys ← parts.withDefault "signing_keys" [] SigningKeySpec.reading.keyed
  let servers ← parts.withDefault "servers" [] Server.reading.list
  let serversFile ← parts.optional "servers_file" .text
  let groups ← parts.withDefault "groups" [] GroupSpec.reading.list
  pure { name, defaults, providers, signingKeys, servers, serversFile, groups }

end DeploymentFile

end ZoneGraph
