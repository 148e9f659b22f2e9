import InfraGraph.Api.Node
import InfraGraph.Api.Setup
import InfraGraph.Entity.Sorting
import InfraGraph.Graph.Work

/-!
Links: the fields of entities that lead to other entities. A link to one entity is loaded, so that the
links of many nodes can share a lookup; a link to many is a listing and is asked for on its own. Where
the other entity may be gone the link is null, elsewhere its absence is a fault.
-/

namespace InfraGraph.Api

open InfraGraph.Graph

def nothing : Resolver (Outcome Node) :=
  return .value .null

def connect {α : Type} [Listed α] (kind : Kind) (wrap : α → Entity) (l : Listing α)
    (p : Page α) : Outcome Node :=
  .node (.connection kind (Connection.ofPage l.order wrap p))

def linkTo (s : Setup) (kind : Kind) (type : EntityType) (id : String) : Resolver (Outcome Node) := do
  s.needLoaders
  return .node (.entity (← Resolver.require .request kind type id))

def linkTo? (s : Setup) (kind : Kind) (type : EntityType) (id : String) : Resolver (Outcome Node) := do
  s.needLoaders
  match ← Resolver.load .request kind type id with
  | none => nothing
  | some e => return .node (.entity e)

def unionTo? (s : Setup) (union : String) (find : Resolver (Option Entity)) :
    Resolver (Outcome Node) := do
  s.needLoaders
  match ← find with
  | none => nothing
  | some e => return .oneOf union (.entity e)

namespace Link

def parent (s : Setup) (g : Group) : Resolver (Outcome Node) :=
  match g.parentId with
  | none => nothing
  | some id => linkTo? s .group .group id

def workspaces (s : Setup) (g : Group) (args : Arguments) : Resolver (Outcome Node) := do
  let l ← listing s args
  s.needCatalog
  return connect .workspace .workspace l (← Resolver.ask (.workspaces l (some g.fullPath) none))

def runs (s : Setup) (w : Workspace) (args : Arguments) : Resolver (Outcome Node) := do
  let l ← listing s args
  s.needCatalog
  return connect .run .run l (← Resolver.ask (.runs l (some w.id)))

def versions (s : Setup) (m : TerraformModule) (args : Arguments) : Resolver (Outcome Node) := do
  let l ← listing s args
  s.needCatalog
  return connect .terraformModuleVersion .terraformModuleVersion l
    (← Resolver.ask (.moduleVersions l m.id (args.bool? "latest")))

/-- The member that a membership names, if it names exactly one. -/
def memberOf (m : NamespaceMembership) : Except Fault (Kind × EntityType × String) :=
  match m.userId, m.serviceAccountId, m.teamId with
  | some id, none, none => .ok (.user, .user, id)
  | none, some id, none => .ok (.serviceAccount, .serviceAccount, id)
  | none, none, some id => .ok (.team, .team, id)
  | _, _, _ => .error (.internal "membership has an invalid member")

def member (s : Setup) (m : NamespaceMembership) : Resolver (Outcome Node) := do
  s.needLoaders
  let (kind, type, id) ← Resolver.ofExcept (memberOf m)
  return .oneOf "Member" (.entity (← Resolver.require .request kind type id))

/-- A user counts before a service account. -/
def loadInitiator (e : ActivityEvent) : Resolver (Option Entity) :=
  match e.userId, e.serviceAccountId with
  | some id, _ => Resolver.load .request .user .user id
  | none, some id => Resolver.load .request .serviceAccount .serviceAccount id
  | none, none => return none

def initiator (s : Setup) (e : ActivityEvent) : Resolver (Outcome Node) :=
  unionTo? s "Initiator" (loadInitiator e)

def loadTarget (type : TargetType) (id : String) : Resolver (Option Entity) :=
  match type with
  | .group => Resolver.load .request .group .group id
  | .workspace => Resolver.load .request .workspace .workspace id
  | .namespaceMembership => Resolver.load .request .namespaceMembership .namespaceMembership id
  | .team => Resolver.load .request .team .team id
  | .role => Resolver.load .request .role .role id
  | .run => Resolver.load .request .run .run id
  | .serviceAccount => Resolver.load .request .serviceAccount .serviceAccount id
  | .terraformModule => Resolver.load .request .terraformModule .terraformModule id
  | .terraformModuleVersion =>
      Resolver.load .request .terraformModuleVersion .terraformModuleVersion id
  | .terraformProvider => Resolver.load .request .terraformProvider .terraformProvider id
  | .vcsProvider => Resolver.load .request .vcsProvider .vcsProvider id

def target (s : Setup) (e : ActivityEvent) : Resolver (Outcome Node) :=
  unionTo? s "ActivityEventTarget" (loadTarget e.targetType e.targetId)

def detail (e : ActivityEvent) : Resolver (Outcome Node) :=
  match e.payload with
  | none => nothing
  | some raw =>
      match Detail.decode e.action e.targetType raw with
      | .error r => throw r.fault
      | .ok d => return .oneOf "ActivityEventPayload" (.detail d)

end Link

/-- The links of an entity by name. A field that it does not have is null. -/
def link (s : Setup) (e : Entity) (field : String) (args : Arguments) : Resolver (Outcome Node) :=
  match e, field with
  | .serviceAccount a, "group" => linkTo s .group .group a.groupId
  | .group g, "parent" => Link.parent s g
  | .group g, "workspaces" => Link.workspaces s g args
  | .workspace w, "group" => linkTo s .group .group w.groupId
  | .workspace w, "runs" => Link.runs s w args
  | .namespaceMembership m, "role" => linkTo s .role .role m.roleId
  | .namespaceMembership m, "member" => Link.member s m
  | .run r, "workspace" => linkTo s .workspace .workspace r.workspaceId
  | .terraformModule m, "group" => linkTo s .group .group m.groupId
  | .terraformModule m, "versions" => Link.versions s m args
  | .terraformModuleVersion v, "module" => linkTo s .terraformModule .terraformModule v.moduleId
  | .terraformProvider p, "group" => linkTo s .group .group p.groupId
  | .vcsProvider p, "group" => linkTo s .group .group p.groupId
  | .activityEvent e, "initiator" => Link.initiator s e
  | .activityEvent e, "target" => Link.target s e
  | .activityEvent e, "payload" => Link.detail e
  | _, _ => nothing

end InfraGraph.Api
