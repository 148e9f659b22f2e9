import InfraGraph.Catalog.Store
import InfraGraph.Loader.Basic
import InfraGraph.Text.Digits

/-!
The service: its store, the run events that wait for a subscriber, the faults it has been told to
fail with, and the log of its calls. A call is logged first; then the earliest fault armed for its
name, if there is one, is used up and is the whole answer. Entities it makes get numbered identifiers.
-/

namespace InfraGraph

inductive Call
  | single (method : String)
  | batch (kind : Kind) (ids : List String)

namespace Call

def lookup : Kind → String
  | .user => "get_users_by_ids"
  | .serviceAccount => "get_service_accounts_by_ids"
  | .group => "get_groups_by_ids"
  | .workspace => "get_workspaces_by_ids"
  | .namespaceMembership => "get_namespace_memberships_by_ids"
  | .team => "get_teams_by_ids"
  | .role => "get_roles_by_ids"
  | .run => "get_runs_by_ids"
  | .terraformModule => "get_modules_by_ids"
  | .terraformModuleVersion => "get_module_versions_by_ids"
  | .terraformProvider => "get_providers_by_ids"
  | .vcsProvider => "get_vcs_providers_by_ids"
  | .activityEvent => "get_activity_events_by_ids"

def isBatch : Call → Bool
  | single _ => false
  | batch _ _ => true

/-- A batch lookup is written with its identifiers in sorted order. -/
def text : Call → String
  | single method => method
  | batch kind ids => lookup kind ++ "(" ++ ",".intercalate (ids.mergeSort (· ≤ ·)) ++ ")"

end Call

/-- A fault that waits for the first call whose name begins with `start`. -/
structure Armed where
  start : String
  fault : Fault

structure Service where
  store : Store
  feed : List (Except Fault RunEvent)
  created : Nat
  armed : List Armed
  log : List Call

namespace Service

def new (store : Store) : Service :=
  ⟨store, [], 0, [], []⟩

def arm (s : Service) (start : String) (f : Fault) : Service :=
  { s with armed := s.armed ++ [⟨start, f⟩] }

def push (s : Service) (event : Except Fault RunEvent) : Service :=
  { s with feed := s.feed ++ [event] }

/-- Logs a call, and uses up the fault that it meets. -/
def record (s : Service) (call : Call) : Option Fault × Service :=
  let meets (a : Armed) := Text.beginsWith call.text a.start
  let logged := { s with log := s.log ++ [call] }
  match s.armed.find? meets with
  | none => (none, logged)
  | some a => (some a.fault, { logged with armed := s.armed.eraseP meets })

def idOf (n : Nat) : String :=
  String.ofList ("00000000-0000-4000-8000-".toList ++ Text.lastHexDigits 12 n)

def write {α : Type} (s : Service) : Except Fault (α × Store) → Except Fault α × Service
  | .error f => (.error f, s)
  | .ok (a, store) => (.ok a, { s with store := store })

def makeMembership (s : Service) (path : String) (member : Member) (roleId : String) :
    NamespaceMembership × Service :=
  let id := idOf (s.created + 1)
  let m : NamespaceMembership := match member with
    | .user u => ⟨id, path, roleId, some u, none, none, .fresh⟩
    | .serviceAccount a => ⟨id, path, roleId, none, some a, none, .fresh⟩
    | .team t => ⟨id, path, roleId, none, none, some t, .fresh⟩
  (m, { s with store := s.store.addMembership m, created := s.created + 1 })

def makeRun (s : Service) (d : RunDraft) : Run × Service :=
  let r : Run := ⟨idOf (s.created + 1), d.workspaceId, .pending, d.isDestroy, d.comment,
    d.moduleSource, d.moduleVersion, false, "admin", .fresh⟩
  (r, { s with store := s.store.addRun r, created := s.created + 1 })

/-- Whether a waiting event concerns a workspace, and a run if one is given. Faults concern all. -/
def concerns (workspaceId : String) (runId : Option String) : Except Fault RunEvent → Bool
  | .error _ => true
  | .ok e => e.run.workspaceId = workspaceId && runId.all (e.run.id = ·)

open Store (first) in
def perform (s : Service) : (q : Request) → Except Fault q.Reply × Service
  | .users l search =>
      (l.page (s.store.users.filter fun u => matchesSearch u.username search), s)
  | .serviceAccounts l path search =>
      (l.page (s.store.serviceAccounts.filter fun a =>
        Path.isBelow a.resourcePath path && matchesSearch a.name search), s)
  | .groups l parent search =>
      (l.page ((s.store.childGroups parent).filter fun g => matchesSearch g.fullPath search), s)
  | .groupAt path => (first s.store.groups (·.fullPath = path) "group" path, s)
  | .workspaces l path search =>
      (l.page (s.store.workspaces.filter fun w =>
        path.all (Path.isBelow w.fullPath) && matchesSearch w.fullPath search), s)
  | .workspaceAt path => (first s.store.workspaces (·.fullPath = path) "workspace" path, s)
  | .memberships path => (.ok (s.store.membershipsAt path), s)
  | .teams l search => (l.page (s.store.teams.filter fun t => matchesSearch t.name search), s)
  | .roles l search => (l.page (s.store.roles.filter fun r => matchesSearch r.name search), s)
  | .roleNamed name => (first s.store.roles (·.name = name) "role" name, s)
  | .runs l workspace =>
      (l.page (s.store.runs.filter fun r => workspace.all (r.workspaceId = ·)), s)
  | .modules l path search =>
      (l.page (s.store.modules.filter fun m =>
        path.all (Path.isBelow m.resourcePath) && matchesSearch m.name search), s)
  | .moduleVersions l id latest =>
      (l.page (s.store.moduleVersions.filter fun v =>
        v.moduleId = id && latest.all (v.latest = ·)), s)
  | .providers l path search =>
      (l.page (s.store.providers.filter fun p =>
        path.all (Path.isBelow p.resourcePath) && matchesSearch p.name search), s)
  | .vcsProviders l path search =>
      (l.page (s.store.vcsProviders.filter fun p =>
        Path.isBelow p.resourcePath path && matchesSearch p.name search), s)
  | .activityEvents l filter => (l.page (s.store.events filter), s)
  | .runEvents workspace run => (.ok (s.feed.filter (concerns workspace run)), { s with feed := [] })
  | .updateGroup id version description => s.write (s.store.updateGroup id version description)
  | .deleteGroup id version force => s.write (s.store.deleteGroup id version force)
  | .updateWorkspace id version description duration =>
      s.write (s.store.updateWorkspace id version description duration)
  | .deleteWorkspace id version => s.write (s.store.deleteWorkspace id version)
  | .createMembership path member roleId =>
      let (m, s) := s.makeMembership path member roleId
      (.ok m, s)
  | .updateMembership id version roleId => s.write (s.store.updateMembership id version roleId)
  | .deleteMembership id version => s.write (s.store.deleteMembership id version)
  | .createRun draft =>
      let (r, s) := s.makeRun draft
      (.ok r, s)
  | .cancelRun id version force => s.write (s.store.cancelRun id version force)
  | .deleteModule id version => s.write (s.store.deleteModule id version)
  | .deleteVcsProvider id version => s.write (s.store.deleteVcsProvider id version)

def answer (s : Service) (q : Request) : Except Fault q.Reply × Service :=
  match s.record (.single q.method) with
  | (some f, s) => (.error f, s)
  | (none, s) => s.perform q

def fetch (kind : Kind) : Loader.Backend String Entity Service := fun ids s =>
  match s.record (.batch kind ids) with
  | (some f, s) => (.error f, s)
  | (none, s) => (.ok (s.store.entity? kind), s)

end Service

end InfraGraph
