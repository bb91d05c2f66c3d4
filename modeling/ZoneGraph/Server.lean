/-! Servers as the compute layer reports them: a host name, public addresses and
tags that say what a server does and where it is. -/
namespace ZoneGraph

def webTag : String := "web"

/-- A server. A disabled one stays in the inventory and gets no traffic. -/
structure Server where
  name : String
  ipv4 : Option String := none
  ipv6 : Option String := none
  hardware : String := ""
  tags : List String := []
  disabled : Bool := false
  deriving DecidableEq

namespace Server

def addTag (tag : String) (server : Server) : Server := { server with tags := server.tags ++ [tag] }

def hasTag (server : Server) (tag : String) : Bool := decide (tag ∈ server.tags)

def servesWeb (server : Server) : Bool := !server.disabled && server.hasTag webTag

def tagged (tag : String) (servers : List Server) : List Server := servers.filter (·.hasTag tag)

end Server

/-- A server and its place in the inventory. Two references are the same when their
places are. -/
structure ServerRef where
  place : Nat
  server : Server
  deriving DecidableEq

def ServerRef.all (servers : List Server) : List ServerRef :=
  servers.zipIdx.map fun entry => ⟨entry.2, entry.1⟩

end ZoneGraph
