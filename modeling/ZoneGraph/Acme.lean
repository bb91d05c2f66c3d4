import ZoneGraph.Record

/-! Certificates of web names: who may issue them, and where challenges are answered.
A wildcard name is certified through the domain below its star. -/
namespace ZoneGraph

def issueAllowed : String := "0 issue \"letsencrypt.org\""

def wildcardForbidden : String := "0 issuewild \";\""

def wildcardAllowed : String := "0 issuewild \"letsencrypt\""

def challengeLabel : String := "_acme-challenge"

/-- The owners and contents of the two records that protect a web name. -/
structure AcmePolicy where
  caaName : String
  caaValues : List String
  challengeName : String
  challengeTarget : String
  deriving DecidableEq

namespace AcmePolicy

/-- The part of a wildcard name after its star and dot. -/
def belowStar? (name : String) : Option String :=
  match name.toList with
  | '*' :: '.' :: rest => some (String.ofList rest)
  | _ => none

def ofApex (zone acmeRoot : String) : AcmePolicy where
  caaName := apex
  caaValues := [issueAllowed, wildcardForbidden]
  challengeName := challengeLabel
  challengeTarget := zone ++ ".acme." ++ acmeRoot ++ "."

def ofOwner (zone acmeRoot wildcard owner : String) : AcmePolicy where
  caaName := owner
  caaValues := [issueAllowed, wildcard]
  challengeName := challengeLabel ++ "." ++ owner
  challengeTarget := owner ++ "." ++ zone ++ ".acme." ++ acmeRoot ++ "."

def ofName (zone acmeRoot name : String) : AcmePolicy :=
  if name = apex then ofApex zone acmeRoot
  else
    match belowStar? name with
    | some owner => ofOwner zone acmeRoot wildcardAllowed owner
    | none => ofOwner zone acmeRoot wildcardForbidden name

end AcmePolicy

end ZoneGraph
