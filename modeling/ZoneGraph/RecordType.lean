/-! The record types a zone may carry. -/
namespace ZoneGraph

inductive RecordType where
  | a
  | aaaa
  | caa
  | cname
  | ds
  | mx
  | ns
  | srv
  | txt
  deriving DecidableEq

namespace RecordType

def all : List RecordType := [.a, .aaaa, .caa, .cname, .ds, .mx, .ns, .srv, .txt]

def name : RecordType → String
  | .a => "A"
  | .aaaa => "AAAA"
  | .caa => "CAA"
  | .cname => "CNAME"
  | .ds => "DS"
  | .mx => "MX"
  | .ns => "NS"
  | .srv => "SRV"
  | .txt => "TXT"

/-- The type of the given name, in either case of the ASCII letters. -/
def ofName? (text : String) : Option RecordType :=
  all.find? fun type => type.name.toList.map Char.toLower = text.toList.map Char.toLower

theorem name_injective {s t : RecordType} (h : s.name = t.name) : s = t := by
  revert h
  cases s <;> cases t <;> decide

end RecordType

end ZoneGraph
