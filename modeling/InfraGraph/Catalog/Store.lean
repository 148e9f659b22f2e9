import InfraGraph.Catalog.Path
import InfraGraph.Catalog.Request

/-!
The store of the service: one list for each kind of entity. Lookups by identifier or path take the
first match. A write looks up its entity, checks the version the caller expects, and then gives the
entity together with the new store; if it fails there is no new store.
-/

namespace InfraGraph

structure Store where
  users : List User
  serviceAccounts : List ServiceAccount
  groups : List Group
  workspaces : List Workspace
  memberships : List NamespaceMembership
  teams : List Team
  roles : List Role
  runs : List Run
  modules : List TerraformModule
  moduleVersions : List TerraformModuleVersion
  providers : List TerraformProvider
  vcsProviders : List VcsProvider
  activityEvents : List ActivityEvent

/-- Whether a text has the searched one in it; no search lets every text through. -/
def matchesSearch (text : String) (search : Option String) : Bool :=
  search.all (Text.contains text)

namespace Store

def entities (s : Store) : Kind → List Entity
  | .user => s.users.map .user
  | .serviceAccount => s.serviceAccounts.map .serviceAccount
  | .group => s.groups.map .group
  | .workspace => s.workspaces.map .workspace
  | .namespaceMembership => s.memberships.map .namespaceMembership
  | .team => s.teams.map .team
  | .role => s.roles.map .role
  | .run => s.runs.map .run
  | .terraformModule => s.modules.map .terraformModule
  | .terraformModuleVersion => s.moduleVersions.map .terraformModuleVersion
  | .terraformProvider => s.providers.map .terraformProvider
  | .vcsProvider => s.vcsProviders.map .vcsProvider
  | .activityEvent => s.activityEvents.map .activityEvent

/-- The entity of a kind with an identifier, the last of them if there are several. -/
def entity? (s : Store) (kind : Kind) (id : String) : Option Entity :=
  (s.entities kind).findRev? (·.id = id)

def first {α : Type} (items : List α) (test : α → Bool) (what name : String) : Except Fault α :=
  match items.find? test with
  | none => .error (.notFound s!"{what} {name} not found")
  | some a => .ok a

/-- The groups directly below the group at a path. A path where there is no group counts as none. -/
def childGroups (s : Store) (parentPath : Option String) : List Group :=
  let parent := parentPath.bind fun path => s.groups.find? (·.fullPath = path)
  s.groups.filter fun g => g.parentId = parent.map (·.id)

def membershipsAt (s : Store) (path : String) : List NamespaceMembership :=
  s.memberships.filter fun m => Path.isWithin path m.namespacePath

def events (s : Store) (f : EventFilter) : List ActivityEvent :=
  s.activityEvents.filter fun e =>
    (f.namespacePath.isNone || e.namespacePath = f.namespacePath) &&
      (f.userId.isNone || e.userId = f.userId) &&
      (f.serviceAccountId.isNone || e.serviceAccountId = f.serviceAccountId) &&
      (f.actions.isEmpty || f.actions.contains e.action) &&
      (f.targets.isEmpty || f.targets.contains e.targetType)

def versionConflict : Fault :=
  .conflict "resource version does not match the specified version"

def checkVersion (m : Metadata) : Option Int → Except Fault Unit
  | none => .ok ()
  | some version => if version = m.version then .ok () else .error versionConflict

def amendFirst {α : Type} (test : α → Bool) (missing : Fault) (change : α → Except Fault α) :
    List α → Except Fault (α × List α)
  | [] => .error missing
  | a :: rest =>
      if test a then (change a).map fun b => (b, b :: rest)
      else (amendFirst test missing change rest).map fun r => (r.1, a :: r.2)

/-- A list of the store whose entities can be written: what they are called, and how the list is read and
replaced. -/
structure Table (α : Type) where
  kind : Kind
  what : String
  wrap : α → Entity
  items : Store → List α
  put : Store → List α → Store
  entities_items : ∀ s, s.entities kind = (items s).map wrap := by
    intro s
    rfl
  entities_put : ∀ s as, (put s as).entities kind = as.map wrap := by
    intro s as
    rfl
  entities_other : ∀ s as k, k ≠ kind → (put s as).entities k = s.entities k := by
    intro s as k other
    cases k <;> first | rfl | exact absurd rfl other

def amend {α : Type} (t : Table α) (s : Store) (id : String) (version : Option Int) (change : α → α) :
    Except Fault (α × Store) := do
  let what := t.what
  let checked (a : α) : Except Fault α := do
    checkVersion (t.wrap a).metadata version
    return change a
  let (a, items) ← amendFirst (fun a => (t.wrap a).id = id) (.notFound s!"{what} not found") checked
    (t.items s)
  return (a, t.put s items)

def remove {α : Type} (t : Table α) (s : Store) (id : String) (version : Option Int) :
    Except Fault (α × Store) := do
  let a ← first (t.items s) (fun a => (t.wrap a).id = id) t.what id
  checkVersion (t.wrap a).metadata version
  return (a, t.put s ((t.items s).filter fun b => (t.wrap b).id ≠ (t.wrap a).id))

namespace Table

def groups : Table Group where
  kind := .group
  what := "group"
  wrap := .group
  items := Store.groups
  put s groups := { s with groups := groups }

def workspaces : Table Workspace where
  kind := .workspace
  what := "workspace"
  wrap := .workspace
  items := Store.workspaces
  put s workspaces := { s with workspaces := workspaces }

def memberships : Table NamespaceMembership where
  kind := .namespaceMembership
  what := "namespace membership"
  wrap := .namespaceMembership
  items := Store.memberships
  put s memberships := { s with memberships := memberships }

def runs : Table Run where
  kind := .run
  what := "run"
  wrap := .run
  items := Store.runs
  put s runs := { s with runs := runs }

def modules : Table TerraformModule where
  kind := .terraformModule
  what := "module"
  wrap := .terraformModule
  items := Store.modules
  put s modules := { s with modules := modules }

def vcsProviders : Table VcsProvider where
  kind := .vcsProvider
  what := "vcs provider"
  wrap := .vcsProvider
  items := Store.vcsProviders
  put s providers := { s with vcsProviders := providers }

end Table

def updateGroup (s : Store) (id : String) (version : Option Int) (description : Option String) :
    Except Fault (Group × Store) :=
  amend .groups s id version fun g => { g with
    description := description.getD g.description
    metadata := g.metadata.bump }

/-- Unless forced, a group that still has workspaces stays. -/
def deleteGroup (s : Store) (id : String) (version : Option Int) (force : Bool) :
    Except Fault (Group × Store) := do
  let (g, left) ← remove .groups s id version
  if !force && s.workspaces.any (·.groupId = g.id) then throw (.conflict "group is not empty")
  return (g, left)

def updateWorkspace (s : Store) (id : String) (version : Option Int) (description : Option String)
    (maxJobDuration : Option Int) : Except Fault (Workspace × Store) :=
  amend .workspaces s id version fun w => { w with
    description := description.getD w.description
    maxJobDuration := maxJobDuration.getD w.maxJobDuration
    metadata := w.metadata.bump }

def deleteWorkspace (s : Store) (id : String) (version : Option Int) :
    Except Fault (Workspace × Store) :=
  remove .workspaces s id version

def addMembership (s : Store) (m : NamespaceMembership) : Store :=
  { s with memberships := s.memberships ++ [m] }

def updateMembership (s : Store) (id : String) (version : Option Int) (roleId : String) :
    Except Fault (NamespaceMembership × Store) :=
  amend .memberships s id version fun m => { m with roleId := roleId, metadata := m.metadata.bump }

def deleteMembership (s : Store) (id : String) (version : Option Int) :
    Except Fault (NamespaceMembership × Store) :=
  remove .memberships s id version

def addRun (s : Store) (r : Run) : Store :=
  { s with runs := s.runs ++ [r] }

def cancelRun (s : Store) (id : String) (version : Option Int) (force : Bool) :
    Except Fault (Run × Store) :=
  amend .runs s id version fun r => { r with
    status := .canceled
    forceCanceled := force
    metadata := r.metadata.bump }

/-- The versions of a module go with it. -/
def deleteModule (s : Store) (id : String) (version : Option Int) :
    Except Fault (TerraformModule × Store) := do
  let (m, left) ← remove .modules s id version
  return (m, { left with moduleVersions := s.moduleVersions.filter (·.moduleId ≠ m.id) })

def deleteVcsProvider (s : Store) (id : String) (version : Option Int) :
    Except Fault (VcsProvider × Store) :=
  remove .vcsProviders s id version

end Store

end InfraGraph
