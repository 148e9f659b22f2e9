import InfraGraph.Activity.Detail
import InfraGraph.Entity.GlobalId
import InfraGraph.Graph.Value
import InfraGraph.Listing.Connection

/-!
The nodes of the graph, the names of their types, and those of their fields that are read off the node
itself. A run that came with an event is a node of its own, since it loads within that event.
-/

namespace InfraGraph

open InfraGraph.Graph (Value)

namespace Api

/-- The answer to a mutation: the entity it concerned, or the problems that kept it from happening. -/
structure Payload where
  kind : Kind
  clientMutationId : Option String
  result : Option Entity
  problems : List Problem

inductive Node
  | query
  | mutation
  | entity (e : Entity)
  | eventRun (r : Run)
  | runEvent (e : RunEvent)
  | metadata (m : Metadata)
  | connection (kind : Kind) (c : Connection Entity)
  | edge (kind : Kind) (e : Edge Entity)
  | pageInfo (p : PageInfo)
  | detail (d : Detail)
  | payload (p : Payload)
  | problem (p : Problem)

def Node.typeName : Node → String
  | query => "QueryRoot"
  | mutation => "MutationRoot"
  | entity e => e.kind.name
  | eventRun _ => Kind.run.name
  | runEvent _ => "RunEvent"
  | metadata _ => "ResourceMetadata"
  | connection kind _ => kind.name ++ "Connection"
  | edge kind _ => kind.name ++ "Edge"
  | pageInfo _ => "PageInfo"
  | detail d => "ActivityEvent" ++ d.shape.name
  | payload p => p.kind.name ++ "MutationPayload"
  | problem _ => "Problem"

def Payload.resultField : Kind → String
  | .namespaceMembership => "membership"
  | .terraformModule => "module"
  | .vcsProvider => "vcsProvider"
  | .workspace => "workspace"
  | .run => "run"
  | _ => "group"

end Api

def User.field? (u : User) : String → Option Value
  | "username" => some (.text u.username)
  | "email" => some (.text u.email)
  | "admin" => some (.bool u.admin)
  | "active" => some (.bool u.active)
  | _ => none

def ServiceAccount.field? (a : ServiceAccount) : String → Option Value
  | "name" => some (.text a.name)
  | "description" => some (.text a.description)
  | "resourcePath" => some (.text a.resourcePath)
  | "createdBy" => some (.text a.createdBy)
  | _ => none

def Group.field? (g : Group) : String → Option Value
  | "name" => some (.text g.name)
  | "description" => some (.text g.description)
  | "fullPath" => some (.text g.fullPath)
  | "createdBy" => some (.text g.createdBy)
  | _ => none

def Workspace.field? (w : Workspace) : String → Option Value
  | "name" => some (.text w.name)
  | "description" => some (.text w.description)
  | "fullPath" => some (.text w.fullPath)
  | "maxJobDuration" => some (.int w.maxJobDuration)
  | "locked" => some (.bool w.locked)
  | "createdBy" => some (.text w.createdBy)
  | _ => none

def NamespaceMembership.field? (m : NamespaceMembership) : String → Option Value
  | "namespacePath" => some (.text m.namespacePath)
  | _ => none

def Team.field? (t : Team) : String → Option Value
  | "name" => some (.text t.name)
  | "description" => some (.text t.description)
  | "scimExternalId" => some (.optional t.scimExternalId)
  | _ => none

def Role.field? (r : Role) : String → Option Value
  | "name" => some (.text r.name)
  | "description" => some (.text r.description)
  | "permissions" => some (.texts r.permissions)
  | "createdBy" => some (.text r.createdBy)
  | _ => none

def Run.field? (r : Run) : String → Option Value
  | "status" => some (.text r.status.label)
  | "isDestroy" => some (.bool r.isDestroy)
  | "comment" => some (.optional r.comment)
  | "moduleSource" => some (.optional r.moduleSource)
  | "moduleVersion" => some (.optional r.moduleVersion)
  | "forceCanceled" => some (.bool r.forceCanceled)
  | "createdBy" => some (.text r.createdBy)
  | _ => none

def TerraformModule.field? (m : TerraformModule) : String → Option Value
  | "name" => some (.text m.name)
  | "system" => some (.text m.system)
  | "resourcePath" => some (.text m.resourcePath)
  | "private" => some (.bool m.isPrivate)
  | "repositoryUrl" => some (.text m.repositoryUrl)
  | "createdBy" => some (.text m.createdBy)
  | _ => none

def TerraformModuleVersion.field? (v : TerraformModuleVersion) : String → Option Value
  | "version" => some (.text v.semanticVersion)
  | "status" => some (.text v.status.label)
  | "latest" => some (.bool v.latest)
  | "submodules" => some (.texts v.submodules)
  | "createdBy" => some (.text v.createdBy)
  | _ => none

def TerraformProvider.field? (p : TerraformProvider) : String → Option Value
  | "name" => some (.text p.name)
  | "resourcePath" => some (.text p.resourcePath)
  | "private" => some (.bool p.isPrivate)
  | "repositoryUrl" => some (.text p.repositoryUrl)
  | "createdBy" => some (.text p.createdBy)
  | _ => none

def VcsProvider.field? (p : VcsProvider) : String → Option Value
  | "name" => some (.text p.name)
  | "description" => some (.text p.description)
  | "resourcePath" => some (.text p.resourcePath)
  | "type" => some (.text p.providerType.label)
  | "url" => some (.text p.url)
  | "autoCreateWebhooks" => some (.bool p.autoCreateWebhooks)
  | "createdBy" => some (.text p.createdBy)
  | _ => none

def ActivityEvent.field? (e : ActivityEvent) : String → Option Value
  | "namespacePath" => some (.optional e.namespacePath)
  | "action" => some (.text e.action.label)
  | "targetType" => some (.text e.targetType.label)
  | "targetId" => some (.text (GlobalId.encode ⟨e.targetType.kind, e.targetId⟩))
  | _ => none

namespace Entity

def globalId (e : Entity) : String :=
  GlobalId.encode ⟨e.kind, e.id⟩

def ownField? : Entity → String → Option Value
  | user u => u.field?
  | serviceAccount a => a.field?
  | group g => g.field?
  | workspace w => w.field?
  | namespaceMembership m => m.field?
  | team t => t.field?
  | role r => r.field?
  | run r => r.field?
  | terraformModule m => m.field?
  | terraformModuleVersion v => v.field?
  | terraformProvider p => p.field?
  | vcsProvider p => p.field?
  | activityEvent e => e.field?

def field? (e : Entity) (name : String) : Option Value :=
  if name = "id" then some (.text e.globalId) else e.ownField? name

end Entity

def Metadata.field? (m : Metadata) : String → Option Value
  | "createdAt" => some (.text m.createdAt.text)
  | "updatedAt" => some (.text m.updatedAt.text)
  | "version" => some (.int m.version)
  | _ => none

def PageInfo.field? (p : PageInfo) : String → Option Value
  | "hasNextPage" => some (.bool p.hasNext)
  | "hasPreviousPage" => some (.bool p.hasPrevious)
  | "startCursor" => some (.optional p.startCursor)
  | "endCursor" => some (.optional p.endCursor)
  | _ => none

def Problem.field? (p : Problem) : String → Option Value
  | "message" => some (.text p.message)
  | "field" => some (match p.field with
      | none => .null
      | some f => .texts [f])
  | "type" => some (.text p.kind.label)
  | _ => none

/-- Details are read off by the keys they are stored under. -/
def Detail.field? : Detail → String → Option Value
  | .createMembership user _ _ _, "userId" => some (.optional user)
  | .createMembership _ account _ _, "serviceAccountId" => some (.optional account)
  | .createMembership _ _ team _, "teamId" => some (.optional team)
  | .createMembership _ _ _ role, "role" => some (.text role)
  | .removeMembership user _ _, "userId" => some (.optional user)
  | .removeMembership _ account _, "serviceAccountId" => some (.optional account)
  | .removeMembership _ _ team, "teamId" => some (.optional team)
  | .updateMembership prev _, "prevRole" => some (.text prev)
  | .updateMembership _ new, "newRole" => some (.text new)
  | .deleteChildResource name _ _, "name" => some (.text name)
  | .deleteChildResource _ id _, "id" => some (.text id)
  | .deleteChildResource _ _ type, "type" => some (.text type)
  | .updateTeam user _ _, "userId" => some (.text user)
  | .updateTeam _ change _, "changeType" => some (.text change)
  | .updateTeam _ _ maintainer, "maintainer" => some (.bool maintainer)
  | .migrate path, "previousGroupPath" => some (.text path)
  | _, _ => none

end InfraGraph
