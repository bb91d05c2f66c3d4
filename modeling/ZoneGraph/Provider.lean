import ZoneGraph.Keyed

/-! Providers: the plugins that manage resources, each configured under a name of its own. -/
namespace ZoneGraph

inductive ProviderKind where
  | aws
  | gandi
  deriving DecidableEq

namespace ProviderKind

def all : List ProviderKind := [.aws, .gandi]

def name : ProviderKind → String
  | .aws => "aws"
  | .gandi => "gandi"

end ProviderKind

/-- A configured plugin, with a name among all providers. The settings hold no secret. -/
structure Provider where
  kind : ProviderKind
  name : String
  settings : Keyed String := []
  deriving DecidableEq

namespace Provider

def reference (provider : Provider) : String := provider.kind.name ++ "." ++ provider.name

/-- The same provider with one setting put or replaced. -/
def set (key value : String) (provider : Provider) : Provider :=
  { provider with settings := Keyed.insert key value provider.settings }

end Provider

end ZoneGraph
