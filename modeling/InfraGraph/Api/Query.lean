import InfraGraph.Api.Link

/-!
The root fields of queries. Arguments are checked before the service is asked anything; a listing
checks its page first, and a field that takes an identifier or a path takes exactly one of them.
-/

namespace InfraGraph.Api.Query

open InfraGraph.Graph

/-- Activity events are only reached through their listing, so their identifiers lead nowhere. -/
def loadNode (kind : Kind) (id : String) : Resolver (Option Entity) :=
  match kind with
  | .user => Resolver.load .request .user .user id
  | .serviceAccount => Resolver.load .request .serviceAccount .serviceAccount id
  | .group => Resolver.load .request .group .group id
  | .workspace => Resolver.load .request .workspace .workspace id
  | .namespaceMembership => Resolver.load .request .namespaceMembership .namespaceMembership id
  | .team => Resolver.load .request .team .team id
  | .role => Resolver.load .request .role .role id
  | .run => Resolver.load .request .run .run id
  | .terraformModule => Resolver.load .request .terraformModule .terraformModule id
  | .terraformModuleVersion =>
      Resolver.load .request .terraformModuleVersion .terraformModuleVersion id
  | .terraformProvider => Resolver.load .request .terraformProvider .terraformProvider id
  | .vcsProvider => Resolver.load .request .vcsProvider .vcsProvider id
  | .activityEvent => return none

def node (s : Setup) (args : Arguments) : Resolver (Outcome Node) :=
  match GlobalId.decode (args.id "id") with
  | .error f => throw f.rejection.fault
  | .ok ⟨kind, id⟩ => unionTo? s "Node" (loadNode kind id)

def users (s : Setup) (args : Arguments) : Resolver (Outcome Node) := do
  let l ← listing s args
  s.needCatalog
  return connect .user .user l (← Resolver.ask (.users l (args.text? "search")))

def serviceAccounts (s : Setup) (args : Arguments) : Resolver (Outcome Node) := do
  let l ← listing s args
  s.needCatalog
  return connect .serviceAccount .serviceAccount l (← Resolver.ask
    (.serviceAccounts l (args.text "namespacePath") (args.text? "search")))

def groups (s : Setup) (args : Arguments) : Resolver (Outcome Node) := do
  let l ← listing s args
  s.needCatalog
  return connect .group .group l
    (← Resolver.ask (.groups l (args.text? "parentPath") (args.text? "search")))

def group (s : Setup) (args : Arguments) : Resolver (Outcome Node) := do
  s.needCatalog
  match ← Resolver.ofExcept (locate .group (args.id? "id") (args.text? "fullPath")) with
  | .id id => linkTo s .group .group id
  | .path path => return .node (.entity (.group (← Resolver.ask (.groupAt path))))

def workspaces (s : Setup) (args : Arguments) : Resolver (Outcome Node) := do
  let l ← listing s args
  s.needCatalog
  return connect .workspace .workspace l
    (← Resolver.ask (.workspaces l (args.text? "groupPath") (args.text? "search")))

def workspace (s : Setup) (args : Arguments) : Resolver (Outcome Node) := do
  s.needCatalog
  match ← Resolver.ofExcept (locate .workspace (args.id? "id") (args.text? "fullPath")) with
  | .id id => linkTo s .workspace .workspace id
  | .path path => return .node (.entity (.workspace (← Resolver.ask (.workspaceAt path))))

def namespaceMemberships (s : Setup) (args : Arguments) : Resolver (Outcome Node) := do
  s.needCatalog
  let ms ← Resolver.ask (.memberships (args.text "namespacePath"))
  return .nodes (ms.map fun m => .entity (.namespaceMembership m))

def teams (s : Setup) (args : Arguments) : Resolver (Outcome Node) := do
  let l ← listing s args
  s.needCatalog
  return connect .team .team l (← Resolver.ask (.teams l (args.text? "search")))

def roles (s : Setup) (args : Arguments) : Resolver (Outcome Node) := do
  let l ← listing s args
  s.needCatalog
  return connect .role .role l (← Resolver.ask (.roles l (args.text? "search")))

def role (s : Setup) (args : Arguments) : Resolver (Outcome Node) :=
  match args.id? "id", args.text? "name" with
  | some id, none => do
      let id ← Resolver.ofExcept (decodeId .role id)
      linkTo s .role .role id
  | none, some name => do
      s.needCatalog
      return .node (.entity (.role (← Resolver.ask (.roleNamed name))))
  | _, _ => throw (.invalidInput "exactly one of the role ID or name must be specified")

def runs (s : Setup) (args : Arguments) : Resolver (Outcome Node) := do
  s.needCatalog
  let l ← listing s args
  let workspace ← match args.id? "workspaceId", args.text? "workspacePath" with
    | none, none => pure none
    | id, path => some <$> workspaceId id path
  return connect .run .run l (← Resolver.ask (.runs l workspace))

def run (s : Setup) (args : Arguments) : Resolver (Outcome Node) := do
  let id ← Resolver.ofExcept (decodeId .run (args.id "id"))
  linkTo s .run .run id

def terraformModules (s : Setup) (args : Arguments) : Resolver (Outcome Node) := do
  let l ← listing s args
  s.needCatalog
  return connect .terraformModule .terraformModule l
    (← Resolver.ask (.modules l (args.text? "groupPath") (args.text? "search")))

def terraformModule (s : Setup) (args : Arguments) : Resolver (Outcome Node) := do
  let id ← Resolver.ofExcept (decodeId .terraformModule (args.id "id"))
  linkTo s .terraformModule .terraformModule id

def terraformProviders (s : Setup) (args : Arguments) : Resolver (Outcome Node) := do
  let l ← listing s args
  s.needCatalog
  return connect .terraformProvider .terraformProvider l
    (← Resolver.ask (.providers l (args.text? "groupPath") (args.text? "search")))

def vcsProviders (s : Setup) (args : Arguments) : Resolver (Outcome Node) := do
  let l ← listing s args
  s.needCatalog
  return connect .vcsProvider .vcsProvider l (← Resolver.ask
    (.vcsProviders l (args.text "namespacePath") (args.text? "search")))

def activityEvents (s : Setup) (args : Arguments) : Resolver (Outcome Node) := do
  let l ← listing s args
  let user ← Resolver.ofExcept (decodeId? .user (args.id? "userId"))
  let account ← Resolver.ofExcept (decodeId? .serviceAccount (args.id? "serviceAccountId"))
  s.needCatalog
  let filter : EventFilter := ⟨args.text? "namespacePath", user, account,
    (args.choices "actions").filterMap ActivityAction.ofLabel?,
    (args.choices "targetTypes").filterMap TargetType.ofLabel?⟩
  return connect .activityEvent .activityEvent l (← Resolver.ask (.activityEvents l filter))

def field (s : Setup) (name : String) (args : Arguments) : Resolver (Outcome Node) :=
  match name with
  | "node" => node s args
  | "users" => users s args
  | "serviceAccounts" => serviceAccounts s args
  | "groups" => groups s args
  | "group" => group s args
  | "workspaces" => workspaces s args
  | "workspace" => workspace s args
  | "namespaceMemberships" => namespaceMemberships s args
  | "teams" => teams s args
  | "roles" => roles s args
  | "role" => role s args
  | "runs" => runs s args
  | "run" => run s args
  | "terraformModules" => terraformModules s args
  | "terraformModule" => terraformModule s args
  | "terraformProviders" => terraformProviders s args
  | "vcsProviders" => vcsProviders s args
  | "activityEvents" => activityEvents s args
  | _ => nothing

end InfraGraph.Api.Query
