import ZoneGraph.Call
import ZoneGraph.Text.Quoted

/-! Fan-out: one call made on several zones. A group forwards a call to its members from
left to right and stops at the first refusal; a member may be a group itself. The first
member is the primary, which names the group. -/
namespace ZoneGraph

/-- A zone, or a group of members with its primary first. -/
inductive FanOut (ζ : Type) where
  | single (zone : ζ)
  | group (primary : FanOut ζ) (backups : List (FanOut ζ))

namespace FanOut

variable {ζ : Type}

/-- Groups members, of which there must be one at least. -/
def ofList : List (FanOut ζ) → Except Fault (FanOut ζ)
  | [] => .error .emptyFanOut
  | primary :: backups => .ok (.group primary backups)

/-- The members of a group; a zone is its own only member. -/
def members : FanOut ζ → List (FanOut ζ)
  | .single zone => [.single zone]
  | .group primary backups => primary :: backups

mutual

def zones : FanOut ζ → List ζ
  | .single zone => [zone]
  | .group primary backups => zones primary ++ zonesOfAll backups

def zonesOfAll : List (FanOut ζ) → List ζ
  | [] => []
  | member :: rest => zones member ++ zonesOfAll rest

end

def origin [RecordHost ζ] : FanOut ζ → Origin
  | .single zone => RecordHost.origin zone
  | .group primary _ => origin primary

def names [RecordHost ζ] (group : FanOut ζ) : List String := group.members.map (·.origin.name)

/-- The group with the names of its members, as messages show it. -/
def shown [RecordHost ζ] (group : FanOut ζ) : String :=
  "MultiZone \x7b members: [" ++ String.intercalate ", " (group.names.map Text.quoted) ++ "] \x7d"

mutual

/-- Makes one call on every zone, from left to right, up to the first refusal. -/
def perform [RecordHost ζ] (call : Call) : Step (FanOut ζ) Unit
  | .single zone =>
    match call.perform zone with
    | .ok _ zone => .ok () (.single zone)
    | .error fault zone => .error fault (.single zone)
  | .group primary backups =>
    match perform call primary with
    | .error fault primary => .error fault (.group primary backups)
    | .ok _ primary =>
      match performOnAll call backups with
      | .ok _ backups => .ok () (.group primary backups)
      | .error fault backups => .error fault (.group primary backups)

/-- Makes one call on some members, from left to right, up to the first refusal. -/
def performOnAll [RecordHost ζ] (call : Call) : Step (List (FanOut ζ)) Unit
  | [] => .ok () []
  | member :: rest =>
    match perform call member with
    | .error fault member => .error fault (member :: rest)
    | .ok _ member =>
      match performOnAll call rest with
      | .ok _ rest => .ok () (member :: rest)
      | .error fault rest => .error fault (member :: rest)

end

/-- Makes calls one after the other, each on every zone, up to the first refusal. -/
def performAll [RecordHost ζ] (calls : List Call) : Step (FanOut ζ) Unit := Step.each perform calls

end FanOut

end ZoneGraph
