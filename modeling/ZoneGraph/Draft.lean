import ZoneGraph.Call

/-! Drafts: the plainest thing on which records can be declared. A draft keeps the
records it is given, answers alike for everybody, and may be full. -/
namespace ZoneGraph

/-- The records declared so far, under a name that is taken as it is. -/
structure Draft where
  origin : Origin
  records : List Record := []
  limit : Option Nat := none

namespace Draft

/-- Whether the draft takes no more records. -/
def isFull (draft : Draft) : Bool := draft.limit.any (· ≤ draft.records.length)

/-- Keeps a record, or refuses it when the draft is full. -/
def declare (record : Record) : Step Draft Unit := fun draft =>
  if draft.isFull then .error (.unsupportedRouting draft.origin.name) draft
  else .ok () { draft with records := draft.records ++ [record] }

instance : RecordHost Draft where
  origin := Draft.origin
  answering _ := .alike
  declare := declare

end Draft

end ZoneGraph
