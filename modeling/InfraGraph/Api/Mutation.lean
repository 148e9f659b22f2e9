import InfraGraph.Api.Link

/-!
The root fields of mutations. Each takes one record of input, finds what it names, and makes one write.
Whatever fails on the way, a fault that the caller can mend becomes the problem of the payload, and any
other fails the field. The caller's own identifier comes back with every payload.
-/

namespace InfraGraph.Api.Mutation

open InfraGraph.Graph

def settle {α : Type} (kind : Kind) (wrap : α → Entity) (clientMutationId : Option String) :
    Except Fault α → Except Fault Payload
  | .ok a => .ok ⟨kind, clientMutationId, some (wrap a), []⟩
  | .error f =>
      match f.problem? with
      | some p => .ok ⟨kind, clientMutationId, none, [p]⟩
      | none => .error f

def perform {α : Type} (s : Setup) (kind : Kind) (wrap : α → Entity) (input : Arguments)
    (write : Resolver α) : Resolver (Outcome Node) := do
  s.needCatalog
  let payload ← Resolver.ofExcept
    (settle kind wrap (input.text? "clientMutationId") (← write.attempt))
  return .node (.payload payload)

def updateGroup (input : Arguments) : Resolver Group := do
  let id ← groupId (input.id? "id") (input.text? "groupPath")
  Resolver.ask (.updateGroup id (input.int? "version") (input.text? "description"))

def deleteGroup (input : Arguments) : Resolver Group := do
  let id ← groupId (input.id? "id") (input.text? "groupPath")
  Resolver.ask (.deleteGroup id (input.int? "version") (input.bool "force"))

def updateWorkspace (input : Arguments) : Resolver Workspace := do
  let id ← workspaceId (input.id? "id") (input.text? "workspacePath")
  Resolver.ask (.updateWorkspace id (input.int? "version") (input.text? "description")
    (input.int? "maxJobDuration"))

def deleteWorkspace (input : Arguments) : Resolver Workspace := do
  let id ← workspaceId (input.id? "id") (input.text? "workspacePath")
  Resolver.ask (.deleteWorkspace id (input.int? "version"))

def memberOf (user account team : Option String) : Except Fault Member :=
  let decode (kind : Kind) (field text : String) : Except Fault String :=
    (decodeId kind text).mapError (·.onField field)
  match user, account, team with
  | some id, none, none => (decode .user "userId" id).map .user
  | none, some id, none => (decode .serviceAccount "serviceAccountId" id).map .serviceAccount
  | none, none, some id => (decode .team "teamId" id).map .team
  | _, _, _ =>
      .error (.invalidInput "exactly one of userId, serviceAccountId or teamId must be specified")

/-- The role that the input names; whatever goes wrong is said of that field. -/
def roleNamed (name : String) : Resolver Role := do
  let found ← (Resolver.ask (.roleNamed name)).attempt
  Resolver.ofExcept (found.mapError (·.onField "role"))

def createMembership (input : Arguments) : Resolver NamespaceMembership := do
  let member ← Resolver.ofExcept
    (memberOf (input.id? "userId") (input.id? "serviceAccountId") (input.id? "teamId"))
  let role ← roleNamed (input.text "role")
  Resolver.ask (.createMembership (input.text "namespacePath") member role.id)

def updateMembership (input : Arguments) : Resolver NamespaceMembership := do
  let id ← Resolver.ofExcept (decodeId .namespaceMembership (input.id "id"))
  let role ← roleNamed (input.text "role")
  Resolver.ask (.updateMembership id (input.int? "version") role.id)

def deleteMembership (input : Arguments) : Resolver NamespaceMembership := do
  let id ← Resolver.ofExcept (decodeId .namespaceMembership (input.id "id"))
  Resolver.ask (.deleteMembership id (input.int? "version"))

def createRun (input : Arguments) : Resolver Run := do
  let workspace ← workspaceId (input.id? "workspaceId") (input.text? "workspacePath")
  Resolver.ask (.createRun ⟨workspace, input.bool "isDestroy", input.text? "comment",
    input.text? "moduleSource", input.text? "moduleVersion"⟩)

def cancelRun (input : Arguments) : Resolver Run := do
  let id ← Resolver.ofExcept (decodeId .run (input.id "runId"))
  Resolver.ask (.cancelRun id (input.int? "version") (input.bool "force"))

def deleteModule (input : Arguments) : Resolver TerraformModule := do
  let id ← Resolver.ofExcept (decodeId .terraformModule (input.id "id"))
  Resolver.ask (.deleteModule id (input.int? "version"))

def deleteVcsProvider (input : Arguments) : Resolver VcsProvider := do
  let id ← Resolver.ofExcept (decodeId .vcsProvider (input.id "id"))
  Resolver.ask (.deleteVcsProvider id (input.int? "version"))

def field (s : Setup) (name : String) (args : Arguments) : Resolver (Outcome Node) :=
  let input := args.record "input"
  match name with
  | "updateGroup" => perform s .group .group input (updateGroup input)
  | "deleteGroup" => perform s .group .group input (deleteGroup input)
  | "updateWorkspace" => perform s .workspace .workspace input (updateWorkspace input)
  | "deleteWorkspace" => perform s .workspace .workspace input (deleteWorkspace input)
  | "createNamespaceMembership" =>
      perform s .namespaceMembership .namespaceMembership input (createMembership input)
  | "updateNamespaceMembership" =>
      perform s .namespaceMembership .namespaceMembership input (updateMembership input)
  | "deleteNamespaceMembership" =>
      perform s .namespaceMembership .namespaceMembership input (deleteMembership input)
  | "createRun" => perform s .run .run input (createRun input)
  | "cancelRun" => perform s .run .run input (cancelRun input)
  | "deleteTerraformModule" => perform s .terraformModule .terraformModule input (deleteModule input)
  | "deleteVcsProvider" => perform s .vcsProvider .vcsProvider input (deleteVcsProvider input)
  | _ => nothing

end InfraGraph.Api.Mutation
