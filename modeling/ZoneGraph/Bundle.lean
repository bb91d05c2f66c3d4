import ZoneGraph.Acme
import ZoneGraph.Defaults
import ZoneGraph.DomainName
import ZoneGraph.Server

/-! Bundles: the records that make up mail hosting, web hosting and server names. Each
is a list that depends only on the zone's name and defaults and on what is asked. -/
namespace ZoneGraph.Bundle

/-! ### Addresses -/

/-- A record of one address family, left out when there is no address. -/
def family (name : String) (type : RecordType) (addresses : List String) (options : RecordOptions) :
    List Record :=
  if addresses.isEmpty then [] else [⟨name, type, .list addresses, options⟩]

/-- One record with the IPv4 addresses of some servers and one with their IPv6
addresses. -/
def addresses (name : String) (servers : List Server) (options : RecordOptions) : List Record :=
  family name .a (servers.filterMap (·.ipv4)) options ++
    family name .aaaa (servers.filterMap (·.ipv6)) options

/-! ### Mail -/

/-- The hosts that take mail, with their preference. -/
def mailHosts : List String :=
  ["10 in1-smtp.messagingengine.com.", "20 in2-smtp.messagingengine.com."]

def senderPolicy : String := "v=spf1 include:spf.messagingengine.com ~all"

def messagePolicy : String := "v=DMARC1; p=none; sp=none"

def mailSelectors : List String := ["mesmtp", "fm1", "fm2", "fm3"]

/-- Where the key of a selector is published for a zone. -/
def mailKeyTarget (selector zone : String) : String :=
  selector ++ "." ++ zone ++ ".dkim.fmhosted.com."

/-- Mail for some names, the zone itself and every other name. -/
def mailHosting (zone : String) (subdomains : List String) : List Record :=
  (subdomains ++ [apex, "*"]).map (fun name => ⟨name, .mx, .list mailHosts, {}⟩) ++
    [⟨apex, .txt, .single senderPolicy, {}⟩] ++
    mailSelectors.map (fun selector =>
      ⟨selector ++ "._domainkey", .cname, .single (mailKeyTarget selector zone), {}⟩) ++
    [⟨"_dmarc", .txt, .single messagePolicy, {}⟩]

/-- Services of mail clients, with the port of their encrypted form. -/
def clientServices : List (String × Nat) := [("imap", 993), ("carddav", 443), ("caldav", 443)]

/-- The records of one client service: the plain form is not offered, which a target of
one dot says, and the encrypted form is. -/
def clientService (service : String) (port : Nat) : List Record :=
  [⟨"_" ++ service ++ "._tcp", .srv, .single "0 0 0 .", {}⟩,
    ⟨"_" ++ service ++ "s._tcp", .srv,
      .single ("0 1 " ++ toString port ++ " " ++ service ++ ".fastmail.com."), {}⟩]

def mailServices : List Record :=
  ⟨"_submission._tcp", .srv, .single "0 1 587 smtp.fastmail.com.", {}⟩ ::
    clientServices.flatMap fun service => clientService service.1 service.2

/-! ### Web names -/

/-- The records that protect a web name. -/
def certificates (origin : Origin) (name : String) : List Record :=
  let policy := AcmePolicy.ofName origin.name origin.defaults.acmeRoot name
  [⟨policy.caaName, .caa, .list policy.caaValues, {}⟩,
    ⟨policy.challengeName, .cname, .single policy.challengeTarget, {}⟩]

/-! ### Server names -/

/-- The addresses of each server whose name lies below the zone, under its name there. -/
def serverNames (zone : DomainName) (servers : List Server) (options : RecordOptions) : List Record :=
  servers.flatMap fun server =>
    match zone.relativeName? server.name with
    | some name => addresses name [server] options
    | none => []

end ZoneGraph.Bundle
