import InfraGraph.Entity.Model
import InfraGraph.Json.Record
import InfraGraph.Rejection

/-!
The details of an activity event. They are stored as JSON, and which shape the JSON has is told by the
action and the type of the target together. A pair without a shape has no details, and details that do
not fit their shape are refused as a whole.
-/

namespace InfraGraph

open Json (Document)

inductive Detail
  | createMembership (userId serviceAccountId teamId : Option String) (role : String)
  | removeMembership (userId serviceAccountId teamId : Option String)
  | updateMembership (prevRole newRole : String)
  | deleteChildResource (name id type : String)
  | updateTeam (userId changeType : String) (maintainer : Bool)
  | migrate (previousGroupPath : String)
  deriving DecidableEq, Repr

namespace Detail

inductive Shape
  | createMembership
  | removeMembership
  | updateMembership
  | deleteChildResource
  | updateTeam
  | migrate
  deriving DecidableEq, Repr

namespace Shape

def name : Shape → String
  | createMembership => "CreateNamespaceMembershipPayload"
  | removeMembership => "RemoveNamespaceMembershipPayload"
  | updateMembership => "UpdateNamespaceMembershipPayload"
  | deleteChildResource => "DeleteChildResourcePayload"
  | updateTeam => "UpdateTeamPayload"
  | migrate => "MigrateNamespacePayload"

/-- The shape of what an action on a type of target records. -/
def of? : ActivityAction → TargetType → Option Shape
  | .createMembership, .group => some createMembership
  | .createMembership, .workspace => some createMembership
  | .removeMembership, .group => some removeMembership
  | .removeMembership, .workspace => some removeMembership
  | .update, .namespaceMembership => some updateMembership
  | .deleteChildResource, .group => some deleteChildResource
  | .deleteChildResource, .workspace => some deleteChildResource
  | .update, .team => some updateTeam
  | .migrate, .group => some migrate
  | .migrate, .workspace => some migrate
  | _, _ => none

/-- The keys of the fields, in the order of a record written as an array. -/
def fields : Shape → List String
  | createMembership => ["userId", "serviceAccountId", "teamId", "role"]
  | removeMembership => ["userId", "serviceAccountId", "teamId"]
  | updateMembership => ["prevRole", "newRole"]
  | deleteChildResource => ["name", "id", "type"]
  | updateTeam => ["userId", "changeType", "maintainer"]
  | migrate => ["previousGroupPath"]

end Shape

def shape : Detail → Shape
  | createMembership .. => .createMembership
  | removeMembership .. => .removeMembership
  | updateMembership .. => .updateMembership
  | deleteChildResource .. => .deleteChildResource
  | updateTeam .. => .updateTeam
  | migrate .. => .migrate

open Json.Document (text? bool? required? optional?) in
def ofFields? : Shape → List (Option Document) → Option Detail
  | .createMembership, [user, account, team, role] => do
      let user ← optional? text? user
      let account ← optional? text? account
      let team ← optional? text? team
      let role ← required? text? role
      some (createMembership user account team role)
  | .removeMembership, [user, account, team] => do
      let user ← optional? text? user
      let account ← optional? text? account
      let team ← optional? text? team
      some (removeMembership user account team)
  | .updateMembership, [prev, new] => do
      let prev ← required? text? prev
      let new ← required? text? new
      some (updateMembership prev new)
  | .deleteChildResource, [name, id, type] => do
      let name ← required? text? name
      let id ← required? text? id
      let type ← required? text? type
      some (deleteChildResource name id type)
  | .updateTeam, [user, change, maintainer] => do
      let user ← required? text? user
      let change ← required? text? change
      let maintainer ← required? bool? maintainer
      some (updateTeam user change maintainer)
  | .migrate, [path] => do
      let path ← required? text? path
      some (migrate path)
  | _, _ => none

def ofDocument? (s : Shape) (d : Document) : Option Detail :=
  (d.fields? s.fields .complete).bind (ofFields? s)

def decode (action : ActivityAction) (target : TargetType) (raw : List UInt8) :
    Except Rejection Detail :=
  match Shape.of? action target with
  | none => .error (.unsupportedCombination action.name target.kind.name)
  | some s =>
    match (Document.ofBytes? raw).bind (ofDocument? s) with
    | none => .error (.undecodable s.name "<json>")
    | some d => .ok d

end Detail

end InfraGraph
