import ZoneGraph.DomainName
import ZoneGraph.Provider
import ZoneGraph.Text.Quoted

/-! What can be refused, by cause. Every operation of the library that may refuse
does so with a `Fault`; its wording is in `Fault.message` alone. -/
namespace ZoneGraph

/-! ### Causes -/

/-- Why a file could not be read or written. -/
inductive FileFault where
  | notFound
  | isDirectory
  | notDirectory
  | nameTooLong
  | nulByte
  | notText
  | other (text : String)
  deriving DecidableEq

namespace FileFault

def message : FileFault → String
  | .notFound => "No such file or directory (os error 2)"
  | .isDirectory => "Is a directory (os error 21)"
  | .notDirectory => "Not a directory (os error 20)"
  | .nameTooLong => "File name too long (os error 36)"
  | .nulByte => "file name contained an unexpected NUL byte"
  | .notText => "stream did not contain valid UTF-8"
  | .other text => text

end FileFault

/-- Why a deployment cannot be built. -/
inductive DeploymentFault where
  | malformed
  | providerDeclaredTwice (name : String)
  | unknownProvider (name : String)
  | outputDeclaredTwice (name : String)
  | unreadableServers (path : String) (fault : FileFault)
  | needsHostedZone (zone : String)
  | needsSigningKey (zone : String)
  | unknownSigningKey (zone key : String)
  | undeclaredChild (label zone : String)
  | ambiguousRecord (name : String)
  deriving DecidableEq

namespace DeploymentFault

def message : DeploymentFault → String
  | .malformed => "TOML"
  | .providerDeclaredTwice name => "provider alias " ++ name ++ " declared twice"
  | .unknownProvider name => "unknown provider " ++ name
  | .outputDeclaredTwice name => "output " ++ name ++ " declared twice"
  | .unreadableServers path fault => "cannot read " ++ path ++ ": " ++ fault.message
  | .needsHostedZone zone =>
    zone ++ ": signing_key, allow_users and output_zone_id need a route53 zone"
  | .needsSigningKey zone => zone ++ ": signing a route53 zone needs a signing_key"
  | .unknownSigningKey zone key => zone ++ ": unknown signing key " ++ key
  | .undeclaredChild label zone =>
    "cannot delegate " ++ label ++ " to " ++ zone ++ ": zone not declared in an earlier group"
  | .ambiguousRecord name => "record " ++ name ++ ": set exactly one of type and servers_tag"

end DeploymentFault

/-- Why an operation is refused. -/
inductive Fault where
  | notSigned (zone : String)
  | invalidRecordType (text : String)
  | malformedGeoTag (server tag : String)
  | unsupportedRouting (zone : String)
  | duplicateResource (path : String)
  | emptyFanOut
  | invalidZoneName (name : String) (fault : NameFault)
  | providerMismatch (expected : ProviderKind) (found : String)
  | deployment (fault : DeploymentFault)
  | file (fault : FileFault)
  | json
  deriving DecidableEq

namespace Fault

def message : Fault → String
  | .notSigned zone => zone ++ " was not signed"
  | .invalidRecordType text => "invalid record type: " ++ text
  | .malformedGeoTag server tag =>
    "malformed geolocation tag " ++ Text.quoted tag ++ " on server " ++ server
  | .unsupportedRouting zone => "zone " ++ zone ++ " does not support routing selectors"
  | .duplicateResource path => "duplicate resource: " ++ path
  | .emptyFanOut => "a fan-out group needs at least one zone"
  | .invalidZoneName name fault =>
    "invalid zone name " ++ Text.quoted name ++ ": " ++ fault.message
  | .providerMismatch expected found =>
    "provider mismatch: expected " ++ expected.name ++ " provider, got " ++ found
  | .deployment fault => "deployment error: " ++ fault.message
  | .file fault => "io error: " ++ fault.message
  | .json => "JSON error: malformed document"

/-- The fault behind a fault, where one is wrapped: its wording stands below the other
in a report. -/
def cause? : Fault → Option String
  | .file fault => some fault.message
  | .json => some "malformed document"
  | _ => none

/-- Whether the operation came too early or on nothing, rather than with wrong data. -/
def isPrecondition : Fault → Bool
  | .notSigned _ | .emptyFanOut => true
  | _ => false

def zone? : Fault → Option String
  | .notSigned zone | .unsupportedRouting zone | .invalidZoneName zone _ => some zone
  | _ => none

end Fault

end ZoneGraph
