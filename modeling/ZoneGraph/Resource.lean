import ZoneGraph.Digest.Sha256
import ZoneGraph.Fault
import ZoneGraph.Reference

/-! Resources: what a provider is asked to create or to look up. A resource is known
by its path; its identifier and address in the document are made from the path. -/
namespace ZoneGraph

/-! ### Kinds -/

inductive ResourceKind where
  | livednsRecord
  | livednsKey
  | livednsLookup
  | registeredNameservers
  | registeredKey
  | hostedZone
  | route53Record
  | hostedZoneKey
  | hostedZoneSigning
  | kmsAlias
  | iamUser
  | iamUserPolicy
  deriving DecidableEq

namespace ResourceKind

def all : List ResourceKind :=
  [.livednsRecord, .livednsKey, .livednsLookup, .registeredNameservers, .registeredKey,
    .hostedZone, .route53Record, .hostedZoneKey, .hostedZoneSigning, .kmsAlias, .iamUser,
    .iamUserPolicy]

def name : ResourceKind → String
  | .livednsRecord => "gandi_livedns_record"
  | .livednsKey => "gandi_livedns_key"
  | .livednsLookup => "gandi_livedns_domain_ns"
  | .registeredNameservers => "gandi_nameservers"
  | .registeredKey => "gandi_dnssec_key"
  | .hostedZone => "aws_route53_zone"
  | .route53Record => "aws_route53_record"
  | .hostedZoneKey => "aws_route53_key_signing_key"
  | .hostedZoneSigning => "aws_route53_hosted_zone_dnssec"
  | .kmsAlias => "aws_kms_alias"
  | .iamUser => "aws_iam_user"
  | .iamUserPolicy => "aws_iam_user_policy"

def ofName? (text : String) : Option ResourceKind := all.find? fun kind => kind.name = text

/-- Whether the resource is only looked up. -/
def isData : ResourceKind → Bool
  | .livednsLookup => true
  | _ => false

def isRecord : ResourceKind → Bool
  | .livednsRecord | .route53Record => true
  | _ => false

def providerKind : ResourceKind → ProviderKind
  | .livednsRecord | .livednsKey | .livednsLookup | .registeredNameservers | .registeredKey =>
    .gandi
  | _ => .aws

end ResourceKind

def Provider.expect (kind : ProviderKind) (provider : Provider) : Except Fault Unit :=
  if provider.kind = kind then .ok () else .error (.providerMismatch kind provider.reference)

/-! ### Identifiers -/

def isIdChar (c : Char) : Bool := c.isAlphanum || c = '-' || c = '_'

/-- A path with every other character replaced, and with an underscore in front unless
it starts with a letter or an underscore. -/
def idStem (path : List Char) : List Char :=
  match path.map fun c => if isIdChar c then c else '_' with
  | [] => ['_']
  | c :: rest => if c.isDigit || c = '-' then '_' :: c :: rest else c :: rest

/-- The identifier of a path: its stem and the start of its digest, since two paths may
have one stem. -/
def logicalId (path : String) : String :=
  String.ofList (idStem path.toList ++ '_' :: (Digest.Sha256.hexDigest path).take 8)

/-! ### Resources -/

/-- A resource and what it waits for. -/
structure Resource where
  kind : ResourceKind
  path : String
  provider : String
  zone : Option String := none
  attributes : Keyed Data := []
  dependsOn : List String := []

namespace Resource

/-- A resource managed by a provider, which must be of the plugin for the kind. -/
def new (kind : ResourceKind) (path : String) (provider : Provider) : Except Fault Resource := do
  provider.expect kind.providerKind
  pure { kind, path, provider := provider.reference }

/-- The same resource with one attribute put or replaced. -/
def set (key : String) (value : Data) (resource : Resource) : Resource :=
  { resource with attributes := Keyed.insert key value resource.attributes }

/-- The same resource with one attribute put or replaced by a text. -/
def setText (key value : String) (resource : Resource) : Resource := resource.set key (.text value)

/-- The same resource, declared by a zone. -/
def inZone (zone : String) (resource : Resource) : Resource := { resource with zone := some zone }

/-- The identifier of the resource among those of its kind. -/
def logicalId (resource : Resource) : String := ZoneGraph.logicalId resource.path

def address (resource : Resource) : String :=
  (if resource.kind.isData then "data." else "") ++ resource.kind.name ++ "." ++ resource.logicalId

/-- The same resource, waiting for one more. -/
def waitFor (resource other : Resource) : Resource :=
  { resource with dependsOn := resource.dependsOn ++ [other.address] }

/-- A reference to an attribute known once the resource exists. -/
def reference (name : String) (resource : Resource) : AttrRef := ⟨resource.address, name⟩

def text? (key : String) (resource : Resource) : Option String :=
  (Keyed.find? key resource.attributes).bind Data.text?

end Resource

end ZoneGraph
