import ZoneGraph.Json.Writer
import ZoneGraph.Zone

/-! Users who may change the records of a Route53 zone. -/
namespace ZoneGraph.Zone

def user (name : String) (zone : Zone) : Resource :=
  (zone.resource .iamUser ("IAM-" ++ name))
    |>.setText "name" name
    |>.setText "path" "/"

def allow (actions : List String) (resources : Data) : Data :=
  .table [("Action", Data.texts actions), ("Effect", .text "Allow"), ("Resource", resources)]

/-- The rights of a user: to change the records of the zone, and to list zones. -/
def rights (zone : Zone) : Data :=
  .table [
    ("Statement", .list [
      allow
        ["route53:GetChange", "route53:ChangeResourceRecordSets", "route53:ListResourceRecordSets"]
        (Data.texts ["arn:aws:route53:::change/*", zone.arn.interpolate]),
      allow ["route53:ListHostedZones"] (.text "*")]),
    ("Version", .text "2012-10-17")]

def userPolicy (name : String) (zone : Zone) : Resource :=
  (zone.resource .iamUserPolicy ("IAM-" ++ name ++ "-policy"))
    |>.setText "name" ("AmazonRoute53-" ++ zone.name ++ "-FullAccess")
    |>.setText "policy" (Json.compact zone.rights)
    |>.setText "user" ((zone.user name).reference "name").interpolate

/-- Lets a user change the records of a Route53 zone. -/
def allowUser (name : String) : Step Zone Unit := fun zone =>
  match zone.backend with
  | .livedns => .error (.deployment (.needsHostedZone zone.name)) zone
  | .route53 => (do
      emit (zone.user name)
      emit (zone.userPolicy name) : Step Zone Unit) zone

end ZoneGraph.Zone
