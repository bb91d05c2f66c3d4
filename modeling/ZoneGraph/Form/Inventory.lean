import ZoneGraph.Form
import ZoneGraph.Provider
import ZoneGraph.Server

/-! The forms of servers and providers. -/
namespace ZoneGraph

namespace Server

/-- The names of a server's parts, in order. -/
def partNames : List String := ["name", "ipv4Address", "ipv6Address", "hardware", "tags", "disabled"]

/-- Every part, nothing where an address is missing. -/
def toData (server : Server) : Data :=
  .table [("disabled", .bool server.disabled), ("hardware", .text server.hardware),
    ("ipv4Address", Data.ofOption .text server.ipv4), ("ipv6Address", Data.ofOption .text server.ipv6),
    ("name", .text server.name), ("tags", Data.texts server.tags)]

def reading : Reading Server := fun dialect data => do
  let parts ← Parts.read partNames dialect data
  let name ← parts.required "name" .text
  let ipv4 ← parts.withDefault "ipv4Address" none Reading.text.option
  let ipv6 ← parts.withDefault "ipv6Address" none Reading.text.option
  let hardware ← parts.withDefault "hardware" "" .text
  let tags ← parts.withDefault "tags" [] Reading.text.list
  let disabled ← parts.withDefault "disabled" false .bool
  pure { name, ipv4, ipv6, hardware, tags, disabled }

end Server

namespace ProviderKind

def reading : Reading ProviderKind := .case fun name => all.find? fun kind => kind.name = name

def toData (kind : ProviderKind) : Data := .text kind.name

end ProviderKind

def settingsToData (settings : Keyed String) : Data := .table (Keyed.mapValues .text settings)

namespace Provider

def toData (provider : Provider) : Data :=
  .table [("alias", .text provider.name), ("kind", provider.kind.toData),
    ("settings", settingsToData provider.settings)]

def reading : Reading Provider := fun dialect data => do
  let parts ← Parts.read ["kind", "alias", "settings"] dialect data
  let kind ← parts.required "kind" ProviderKind.reading
  let name ← parts.required "alias" .text
  let settings ← parts.withDefault "settings" [] Reading.text.keyed
  pure { kind, name, settings }

end Provider

end ZoneGraph
