import ZoneGraph.Defaults
import ZoneGraph.Form
import ZoneGraph.Reference

/-! The forms of references, signing keys, nameservers, summaries and defaults. -/
namespace ZoneGraph

namespace AttrRef

def toData (ref : AttrRef) : Data :=
  .table [("address", .text ref.address), ("attribute", .text ref.name)]

def reading : Reading AttrRef := fun dialect data => do
  let parts ← Parts.read ["address", "attribute"] dialect data
  let address ← parts.required "address" .text
  let name ← parts.required "attribute" .text
  pure { address, name }

end AttrRef

namespace SigningKey

def toData (key : SigningKey) : Data :=
  .table [("algorithm", .text key.algorithm), ("ds_record", .text key.dsRecord),
    ("public_key", .text key.publicKey)]

def reading : Reading SigningKey := fun dialect data => do
  let parts ← Parts.read ["public_key", "algorithm", "ds_record"] dialect data
  let publicKey ← parts.required "public_key" .text
  let algorithm ← parts.required "algorithm" .text
  let dsRecord ← parts.required "ds_record" .text
  pure { publicKey, algorithm, dsRecord }

end SigningKey

namespace SigningKeyHandle

def toData (handle : SigningKeyHandle) : Data := .table [("key_arn", .text handle.keyArn)]

def reading : Reading SigningKeyHandle := fun dialect data => do
  let parts ← Parts.read ["key_arn"] dialect data
  let keyArn ← parts.required "key_arn" .text
  pure { keyArn }

end SigningKeyHandle

namespace Nameservers

def toForm : Nameservers → Data
  | .hosts names => .table [("static", Data.texts names)]
  | .reference ref => .table [("reference", ref.toData)]

def reading : Reading Nameservers
  | dialect, .table [("static", data)] => (Reading.text.list dialect data).map .hosts
  | dialect, .table [("reference", data)] => (AttrRef.reading dialect data).map .reference
  | _, _ => none

end Nameservers

namespace ZoneSummary

def toData (summary : ZoneSummary) : Data :=
  .table [("ds_record", Data.ofOption .text summary.dsRecord), ("nameservers", summary.nameservers.toForm),
    ("zone", .text summary.zone)]

def reading : Reading ZoneSummary := fun dialect data => do
  let parts ← Parts.read ["zone", "nameservers", "ds_record"] dialect data
  let zone ← parts.required "zone" .text
  let nameservers ← parts.required "nameservers" Nameservers.reading
  let dsRecord ← parts.optional "ds_record" .text
  pure { zone, nameservers, dsRecord }

end ZoneSummary

namespace ZoneDefaults

def toData (defaults : ZoneDefaults) : Data :=
  .table [("acme_root", .text defaults.acmeRoot), ("default_ttl", .int defaults.defaultTtl.toNat),
    ("web_ttl", .int defaults.webTtl.toNat)]

/-- The root of challenges, and times to live where they differ from the usual. -/
def reading : Reading ZoneDefaults := fun dialect data => do
  let parts ← Parts.read ["default_ttl", "web_ttl", "acme_root"] dialect data
  let defaultTtl ← parts.withDefault "default_ttl" dayTtl .word
  let webTtl ← parts.withDefault "web_ttl" ZoneGraph.webTtl .word
  let acmeRoot ← parts.required "acme_root" .text
  pure { defaultTtl, webTtl, acmeRoot }

end ZoneDefaults

end ZoneGraph
