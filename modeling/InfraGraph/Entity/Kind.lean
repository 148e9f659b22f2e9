import InfraGraph.Fault

/-!
The kinds of entity, each with the name shown to clients and the short code used inside global
identifiers. Codes are pairwise different, so a code tells its kind.
-/

namespace InfraGraph

inductive Kind
  | user
  | serviceAccount
  | group
  | workspace
  | namespaceMembership
  | team
  | role
  | run
  | terraformModule
  | terraformModuleVersion
  | terraformProvider
  | vcsProvider
  | activityEvent
  deriving DecidableEq, Repr

namespace Kind

def all : List Kind :=
  [user, serviceAccount, group, workspace, namespaceMembership, team, role, run, terraformModule,
    terraformModuleVersion, terraformProvider, vcsProvider, activityEvent]

def name : Kind → String
  | user => "User"
  | serviceAccount => "ServiceAccount"
  | group => "Group"
  | workspace => "Workspace"
  | namespaceMembership => "NamespaceMembership"
  | team => "Team"
  | role => "Role"
  | run => "Run"
  | terraformModule => "TerraformModule"
  | terraformModuleVersion => "TerraformModuleVersion"
  | terraformProvider => "TerraformProvider"
  | vcsProvider => "VcsProvider"
  | activityEvent => "ActivityEvent"

def code : Kind → String
  | user => "U"
  | serviceAccount => "SA"
  | group => "G"
  | workspace => "W"
  | namespaceMembership => "NM"
  | team => "T"
  | role => "R"
  | run => "RN"
  | terraformModule => "TM"
  | terraformModuleVersion => "TMV"
  | terraformProvider => "TP"
  | vcsProvider => "VP"
  | activityEvent => "AE"

def ofCode? (code : String) : Option Kind :=
  all.find? (·.code = code)

def ofName? (name : String) : Option Kind :=
  all.find? (·.name = name)

@[simp]
theorem ofCode?_code (k : Kind) : ofCode? k.code = some k := by
  cases k <;> decide

theorem mem_all (k : Kind) : k ∈ all := by
  cases k <;> decide

end Kind

def Fault.missing (kind : Kind) (id : String) : Fault :=
  let kind := kind.name
  .notFound s!"{kind} with id {id} not found"

end InfraGraph
