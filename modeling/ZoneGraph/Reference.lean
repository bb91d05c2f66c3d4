import ZoneGraph.Values

/-! References to attributes that are only known once resources exist, and the things
made of them: signing keys, nameservers and what a parent zone needs of a child. -/
namespace ZoneGraph

/-- A named attribute of the resource at an address. -/
structure AttrRef where
  address : String
  name : String
  deriving DecidableEq

namespace AttrRef

def expression (ref : AttrRef) : String := ref.address ++ "." ++ ref.name

/-- The expression as an attribute value holds it. -/
def interpolate (ref : AttrRef) : String := "$\x7b" ++ ref.expression ++ "\x7d"

end AttrRef

/-- The key that signs a zone. -/
structure SigningKey where
  publicKey : String
  algorithm : String
  dsRecord : String
  deriving DecidableEq

/-- A key kept outside, known by its resource name. -/
structure SigningKeyHandle where
  keyArn : String
  deriving DecidableEq

/-- The nameservers of a zone: known hosts, or a list known later. -/
inductive Nameservers where
  | hosts (names : List String)
  | reference (ref : AttrRef)
  deriving DecidableEq

namespace Nameservers

def toData : Nameservers → Data
  | .hosts names => Data.texts names
  | .reference ref => .text ref.interpolate

def withDot (host : String) : String :=
  if host.toList.getLast? = some '.' then host else host ++ "."

/-- The values of a record naming the nameservers, each with a dot at its end. A list
known later stays one expression. -/
def fqdnValues : Nameservers → Values
  | .hosts names => .list (names.map withDot)
  | .reference ref => .expression ("$\x7bformatlist(\"%s.\", " ++ ref.expression ++ ")\x7d")

end Nameservers

/-- What a parent zone needs to delegate to a child zone. -/
structure ZoneSummary where
  zone : String
  nameservers : Nameservers
  dsRecord : Option String
  deriving DecidableEq

end ZoneGraph
