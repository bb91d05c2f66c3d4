import ZoneGraph.Cli.Style
import ZoneGraph.Form.Resource
import ZoneGraph.Stack

/-! What is reported of a stack: its records, zone after zone, and how much each zone
declares. -/
namespace ZoneGraph.Cli

/-! ### Records -/

/-- The records of a stack, or of one of its zones. A zone that declared nothing is not
known. -/
def recordsOf (stack : Stack) : Option String → Option (List Published)
  | none => some stack.records
  | some zone =>
    let records := stack.records.filter fun record => record.zone = zone
    if records.isEmpty ∧ zone ∉ stack.zones then none else some records

def recordLine (colors : Bool) (record : Published) : String :=
  let routing := match record.setIdentifier with
    | some setIdentifier => painted colors .aside 0 (" [" ++ setIdentifier ++ "]")
    | none => ""
  "  " ++ painted colors .name 24 record.name ++ " " ++ padLeft 6 (toString record.ttl.toNat) ++ " " ++
    painted colors .kind 6 record.type.name ++ " " ++ String.intercalate " " record.values ++ routing ++ "\n"

/-- Records below headings that name their zones, after records of the given zone. -/
def listFrom (colors : Bool) (current : Option String) : List Published → String
  | [] => ""
  | record :: rest =>
    let heading :=
      if current = some record.zone then ""
      else (if current.isSome then "\n" else "") ++ painted colors .heading 0 record.zone ++ "\n"
    heading ++ recordLine colors record ++ listFrom colors (some record.zone) rest

def recordListing (colors : Bool) (records : List Published) : String :=
  if records.isEmpty then painted colors .aside 0 "No records." ++ "\n"
  else listFrom colors none records

/-! ### Counts -/

/-- How much a zone declares. -/
structure ZoneCount where
  zone : String
  resources : Nat
  records : Nat
  deriving DecidableEq

/-- How much a stack declares. -/
structure StackCount where
  stack : String
  providers : Nat
  resources : Nat
  zones : List ZoneCount
  deriving DecidableEq

def countZone (stack : Stack) (zone : String) : ZoneCount where
  zone := zone
  resources := (stack.resources.toList.filter fun resource => resource.zone = some zone).length
  records := (stack.records.filter fun record => record.zone = zone).length

def countStack (stack : Stack) : StackCount where
  stack := stack.name
  providers := stack.providers.length
  resources := stack.resources.size
  zones := stack.zones.map (countZone stack)

def ZoneCount.toData (count : ZoneCount) : Data :=
  .table [("zone", .text count.zone), ("resources", .int count.resources), ("records", .int count.records)]

def StackCount.toData (count : StackCount) : Data :=
  .table [("stack", .text count.stack), ("providers", .int count.providers),
    ("resources", .int count.resources), ("zones", .list (count.zones.map ZoneCount.toData))]

def zoneLine (colors : Bool) (count : ZoneCount) : String :=
  "  " ++ painted colors .name 28 count.zone ++ " " ++ padLeft 4 (toString count.resources) ++
    " resources " ++ padLeft 4 (toString count.records) ++ " records\n"

def countListing (colors : Bool) (count : StackCount) : String :=
  painted colors .success 0 "OK" ++ " " ++ painted colors .title 0 count.stack ++ " (" ++
    toString count.providers ++ " providers, " ++ toString count.resources ++ " resources)\n" ++
    String.join (count.zones.map (zoneLine colors))

end ZoneGraph.Cli
