import InfraGraph.Entity.Sorting
import InfraGraph.Listing.Page

/-!
What the service can be asked, each request with the type of its reply and the name it is logged
under. Listings come as pages; updates, cancels and deletes may name the version they expect to find.
-/

namespace InfraGraph

inductive Member
  | user (id : String)
  | serviceAccount (id : String)
  | team (id : String)
  deriving DecidableEq, Repr

/-- Which events to list; an empty list of actions or targets lets all through. -/
structure EventFilter where
  namespacePath : Option String
  userId : Option String
  serviceAccountId : Option String
  actions : List ActivityAction
  targets : List TargetType

structure RunDraft where
  workspaceId : String
  isDestroy : Bool
  comment : Option String
  moduleSource : Option String
  moduleVersion : Option String

inductive Request
  | users (listing : Listing User) (search : Option String)
  | serviceAccounts (listing : Listing ServiceAccount) (namespacePath : String)
      (search : Option String)
  | groups (listing : Listing Group) (parentPath : Option String) (search : Option String)
  | groupAt (path : String)
  | workspaces (listing : Listing Workspace) (groupPath : Option String) (search : Option String)
  | workspaceAt (path : String)
  | memberships (namespacePath : String)
  | teams (listing : Listing Team) (search : Option String)
  | roles (listing : Listing Role) (search : Option String)
  | roleNamed (name : String)
  | runs (listing : Listing Run) (workspaceId : Option String)
  | modules (listing : Listing TerraformModule) (groupPath : Option String) (search : Option String)
  | moduleVersions (listing : Listing TerraformModuleVersion) (moduleId : String)
      (latest : Option Bool)
  | providers (listing : Listing TerraformProvider) (groupPath : Option String)
      (search : Option String)
  | vcsProviders (listing : Listing VcsProvider) (namespacePath : String) (search : Option String)
  | activityEvents (listing : Listing ActivityEvent) (filter : EventFilter)
  | runEvents (workspaceId : String) (runId : Option String)
  | updateGroup (id : String) (version : Option Int) (description : Option String)
  | deleteGroup (id : String) (version : Option Int) (force : Bool)
  | updateWorkspace (id : String) (version : Option Int) (description : Option String)
      (maxJobDuration : Option Int)
  | deleteWorkspace (id : String) (version : Option Int)
  | createMembership (namespacePath : String) (member : Member) (roleId : String)
  | updateMembership (id : String) (version : Option Int) (roleId : String)
  | deleteMembership (id : String) (version : Option Int)
  | createRun (draft : RunDraft)
  | cancelRun (id : String) (version : Option Int) (force : Bool)
  | deleteModule (id : String) (version : Option Int)
  | deleteVcsProvider (id : String) (version : Option Int)

namespace Request

@[reducible]
def Reply : Request → Type
  | users .. => Page User
  | serviceAccounts .. => Page ServiceAccount
  | groups .. => Page Group
  | groupAt _ => Group
  | workspaces .. => Page Workspace
  | workspaceAt _ => Workspace
  | memberships _ => List NamespaceMembership
  | teams .. => Page Team
  | roles .. => Page Role
  | roleNamed _ => Role
  | runs .. => Page Run
  | modules .. => Page TerraformModule
  | moduleVersions .. => Page TerraformModuleVersion
  | providers .. => Page TerraformProvider
  | vcsProviders .. => Page VcsProvider
  | activityEvents .. => Page ActivityEvent
  | runEvents .. => List (Except Fault RunEvent)
  | updateGroup .. => Group
  | deleteGroup .. => Group
  | updateWorkspace .. => Workspace
  | deleteWorkspace .. => Workspace
  | createMembership .. => NamespaceMembership
  | updateMembership .. => NamespaceMembership
  | deleteMembership .. => NamespaceMembership
  | createRun _ => Run
  | cancelRun .. => Run
  | deleteModule .. => TerraformModule
  | deleteVcsProvider .. => VcsProvider

def method : Request → String
  | users .. => "get_users"
  | serviceAccounts .. => "get_service_accounts"
  | groups .. => "get_groups"
  | groupAt _ => "get_group_by_path"
  | workspaces .. => "get_workspaces"
  | workspaceAt _ => "get_workspace_by_path"
  | memberships _ => "get_namespace_memberships"
  | teams .. => "get_teams"
  | roles .. => "get_roles"
  | roleNamed _ => "get_role_by_name"
  | runs .. => "get_runs"
  | modules .. => "get_modules"
  | moduleVersions .. => "get_module_versions"
  | providers .. => "get_providers"
  | vcsProviders .. => "get_vcs_providers"
  | activityEvents .. => "get_activity_events"
  | runEvents .. => "subscribe_to_run_events"
  | updateGroup .. => "update_group"
  | deleteGroup .. => "delete_group"
  | updateWorkspace .. => "update_workspace"
  | deleteWorkspace .. => "delete_workspace"
  | createMembership .. => "create_namespace_membership"
  | updateMembership .. => "update_namespace_membership"
  | deleteMembership .. => "delete_namespace_membership"
  | createRun _ => "create_run"
  | cancelRun .. => "cancel_run"
  | deleteModule .. => "delete_module"
  | deleteVcsProvider .. => "delete_vcs_provider"

end Request

end InfraGraph
