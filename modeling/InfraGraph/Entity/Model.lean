import InfraGraph.Entity.Kind
import InfraGraph.Time.Instant

/-!
The entities of the service and the values they are made of. An entity refers to others by
identifier; whether the other exists is for the lookup to find out.
-/

namespace InfraGraph

open Time

/-- Versions are 32-bit numbers. -/
structure Metadata where
  createdAt : Instant
  updatedAt : Instant
  version : Int
  deriving DecidableEq, Repr

namespace Metadata

def fresh : Metadata :=
  ⟨⟨1709294400, 0⟩, ⟨1709294700, 0⟩, 1⟩

def bump (m : Metadata) : Metadata :=
  { m with version := Int.bmod (m.version + 1) 4294967296, updatedAt := m.updatedAt.plusSeconds 1 }

end Metadata

structure User where
  id : String
  username : String
  email : String
  admin : Bool
  active : Bool
  metadata : Metadata

structure ServiceAccount where
  id : String
  name : String
  description : String
  groupId : String
  resourcePath : String
  createdBy : String
  metadata : Metadata

structure Group where
  id : String
  name : String
  description : String
  fullPath : String
  parentId : Option String
  createdBy : String
  metadata : Metadata

structure Workspace where
  id : String
  name : String
  description : String
  fullPath : String
  groupId : String
  maxJobDuration : Int
  locked : Bool
  createdBy : String
  metadata : Metadata

/-- A sound membership names exactly one member. -/
structure NamespaceMembership where
  id : String
  namespacePath : String
  roleId : String
  userId : Option String
  serviceAccountId : Option String
  teamId : Option String
  metadata : Metadata

structure Team where
  id : String
  name : String
  description : String
  scimExternalId : Option String
  metadata : Metadata

structure Role where
  id : String
  name : String
  description : String
  permissions : List String
  createdBy : String
  metadata : Metadata

inductive RunStatus
  | pending
  | planning
  | planned
  | applying
  | applied
  | plannedAndFinished
  | canceled
  | errored
  deriving DecidableEq, Repr

def RunStatus.label : RunStatus → String
  | pending => "PENDING"
  | planning => "PLANNING"
  | planned => "PLANNED"
  | applying => "APPLYING"
  | applied => "APPLIED"
  | plannedAndFinished => "PLANNED_AND_FINISHED"
  | canceled => "CANCELED"
  | errored => "ERRORED"

def RunStatus.ofLabel? (label : String) : Option RunStatus :=
  [pending, planning, planned, applying, applied, plannedAndFinished, canceled, errored].find?
    (·.label = label)

structure Run where
  id : String
  workspaceId : String
  status : RunStatus
  isDestroy : Bool
  comment : Option String
  moduleSource : Option String
  moduleVersion : Option String
  forceCanceled : Bool
  createdBy : String
  metadata : Metadata

structure RunEvent where
  action : String
  run : Run

structure TerraformModule where
  id : String
  name : String
  system : String
  groupId : String
  resourcePath : String
  isPrivate : Bool
  repositoryUrl : String
  createdBy : String
  metadata : Metadata

inductive ModuleVersionStatus
  | pending
  | uploadInProgress
  | errored
  | uploaded
  deriving DecidableEq, Repr

def ModuleVersionStatus.label : ModuleVersionStatus → String
  | pending => "PENDING"
  | uploadInProgress => "UPLOAD_IN_PROGRESS"
  | errored => "ERRORED"
  | uploaded => "UPLOADED"

def ModuleVersionStatus.ofLabel? (label : String) : Option ModuleVersionStatus :=
  [pending, uploadInProgress, errored, uploaded].find? (·.label = label)

structure TerraformModuleVersion where
  id : String
  moduleId : String
  semanticVersion : String
  status : ModuleVersionStatus
  latest : Bool
  submodules : List String
  createdBy : String
  metadata : Metadata

structure TerraformProvider where
  id : String
  name : String
  groupId : String
  resourcePath : String
  isPrivate : Bool
  repositoryUrl : String
  createdBy : String
  metadata : Metadata

inductive VcsProviderType
  | github
  | gitlab
  deriving DecidableEq, Repr

def VcsProviderType.label : VcsProviderType → String
  | github => "GITHUB"
  | gitlab => "GITLAB"

def VcsProviderType.ofLabel? (label : String) : Option VcsProviderType :=
  [github, gitlab].find? (·.label = label)

structure VcsProvider where
  id : String
  name : String
  description : String
  groupId : String
  resourcePath : String
  providerType : VcsProviderType
  url : String
  autoCreateWebhooks : Bool
  createdBy : String
  metadata : Metadata

inductive ActivityAction
  | create
  | update
  | deleteChildResource
  | createMembership
  | removeMembership
  | lock
  | unlock
  | migrate
  deriving DecidableEq, Repr

namespace ActivityAction

def name : ActivityAction → String
  | create => "Create"
  | update => "Update"
  | deleteChildResource => "DeleteChildResource"
  | createMembership => "CreateMembership"
  | removeMembership => "RemoveMembership"
  | lock => "Lock"
  | unlock => "Unlock"
  | migrate => "Migrate"

def label : ActivityAction → String
  | create => "CREATE"
  | update => "UPDATE"
  | deleteChildResource => "DELETE_CHILD_RESOURCE"
  | createMembership => "CREATE_MEMBERSHIP"
  | removeMembership => "REMOVE_MEMBERSHIP"
  | lock => "LOCK"
  | unlock => "UNLOCK"
  | migrate => "MIGRATE"

def ofLabel? (label : String) : Option ActivityAction :=
  [create, update, deleteChildResource, createMembership, removeMembership, lock, unlock,
    migrate].find? (·.label = label)

end ActivityAction

inductive TargetType
  | group
  | workspace
  | namespaceMembership
  | team
  | role
  | run
  | serviceAccount
  | terraformModule
  | terraformModuleVersion
  | terraformProvider
  | vcsProvider
  deriving DecidableEq, Repr

namespace TargetType

/-- The kind in the global identifier of a target. -/
def kind : TargetType → Kind
  | group => .group
  | workspace => .workspace
  | namespaceMembership => .namespaceMembership
  | team => .team
  | role => .role
  | run => .run
  | serviceAccount => .serviceAccount
  | terraformModule => .terraformModule
  | terraformModuleVersion => .terraformModuleVersion
  | terraformProvider => .terraformProvider
  | vcsProvider => .vcsProvider

def label : TargetType → String
  | group => "GROUP"
  | workspace => "WORKSPACE"
  | namespaceMembership => "NAMESPACE_MEMBERSHIP"
  | team => "TEAM"
  | role => "ROLE"
  | run => "RUN"
  | serviceAccount => "SERVICE_ACCOUNT"
  | terraformModule => "TERRAFORM_MODULE"
  | terraformModuleVersion => "TERRAFORM_MODULE_VERSION"
  | terraformProvider => "TERRAFORM_PROVIDER"
  | vcsProvider => "VCS_PROVIDER"

def ofLabel? (label : String) : Option TargetType :=
  [group, workspace, namespaceMembership, team, role, run, serviceAccount, terraformModule,
    terraformModuleVersion, terraformProvider, vcsProvider].find? (·.label = label)

end TargetType

/-- The payload is kept as the bytes that were recorded. -/
structure ActivityEvent where
  id : String
  userId : Option String
  serviceAccountId : Option String
  namespacePath : Option String
  action : ActivityAction
  targetType : TargetType
  targetId : String
  payload : Option (List UInt8)
  metadata : Metadata

inductive Entity
  | user (u : User)
  | serviceAccount (a : ServiceAccount)
  | group (g : Group)
  | workspace (w : Workspace)
  | namespaceMembership (m : NamespaceMembership)
  | team (t : Team)
  | role (r : Role)
  | run (r : Run)
  | terraformModule (m : TerraformModule)
  | terraformModuleVersion (v : TerraformModuleVersion)
  | terraformProvider (p : TerraformProvider)
  | vcsProvider (p : VcsProvider)
  | activityEvent (e : ActivityEvent)

/-- The types of entity that are loaded by identifier. -/
inductive EntityType
  | user
  | serviceAccount
  | group
  | workspace
  | namespaceMembership
  | team
  | role
  | run
  | terraformModule
  | terraformModuleVersion
  | terraformProvider
  | vcsProvider
  deriving DecidableEq, Repr

namespace Entity

def kind : Entity → Kind
  | user _ => .user
  | serviceAccount _ => .serviceAccount
  | group _ => .group
  | workspace _ => .workspace
  | namespaceMembership _ => .namespaceMembership
  | team _ => .team
  | role _ => .role
  | run _ => .run
  | terraformModule _ => .terraformModule
  | terraformModuleVersion _ => .terraformModuleVersion
  | terraformProvider _ => .terraformProvider
  | vcsProvider _ => .vcsProvider
  | activityEvent _ => .activityEvent

def id : Entity → String
  | user u => u.id
  | serviceAccount a => a.id
  | group g => g.id
  | workspace w => w.id
  | namespaceMembership m => m.id
  | team t => t.id
  | role r => r.id
  | run r => r.id
  | terraformModule m => m.id
  | terraformModuleVersion v => v.id
  | terraformProvider p => p.id
  | vcsProvider p => p.id
  | activityEvent e => e.id

def metadata : Entity → Metadata
  | user u => u.metadata
  | serviceAccount a => a.metadata
  | group g => g.metadata
  | workspace w => w.metadata
  | namespaceMembership m => m.metadata
  | team t => t.metadata
  | role r => r.metadata
  | run r => r.metadata
  | terraformModule m => m.metadata
  | terraformModuleVersion v => v.metadata
  | terraformProvider p => p.metadata
  | vcsProvider p => p.metadata
  | activityEvent e => e.metadata

end Entity

end InfraGraph
