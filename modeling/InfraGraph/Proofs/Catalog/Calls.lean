import InfraGraph.Catalog.Service

/-!
Calls to the service. A call meets at most one armed fault, which it uses up. A read is answered from
the store and leaves all but the log as it was, and so does a batch lookup.
-/

namespace InfraGraph

namespace Request

/-- Whether a request only reads the store. The events that wait are taken out by reading them. -/
def isRead : Request → Bool
  | users .. | serviceAccounts .. | groups .. | groupAt _ | workspaces .. | workspaceAt _
  | memberships _ | teams .. | roles .. | roleNamed _ | runs .. | modules .. | moduleVersions ..
  | providers .. | vcsProviders .. | activityEvents .. => true
  | _ => false

def shown : (q : Request) → q.Reply → List Entity
  | users .., p => p.items.map .user
  | serviceAccounts .., p => p.items.map .serviceAccount
  | groups .., p => p.items.map .group
  | groupAt _, g => [.group g]
  | workspaces .., p => p.items.map .workspace
  | workspaceAt _, w => [.workspace w]
  | memberships _, ms => ms.map .namespaceMembership
  | teams .., p => p.items.map .team
  | roles .., p => p.items.map .role
  | roleNamed _, r => [.role r]
  | runs .., p => p.items.map .run
  | modules .., p => p.items.map .terraformModule
  | moduleVersions .., p => p.items.map .terraformModuleVersion
  | providers .., p => p.items.map .terraformProvider
  | vcsProviders .., p => p.items.map .vcsProvider
  | activityEvents .., p => p.items.map .activityEvent
  | runEvents .., _ => []
  | updateGroup .., g => [.group g]
  | deleteGroup .., g => [.group g]
  | updateWorkspace .., w => [.workspace w]
  | deleteWorkspace .., w => [.workspace w]
  | createMembership .., m => [.namespaceMembership m]
  | updateMembership .., m => [.namespaceMembership m]
  | deleteMembership .., m => [.namespaceMembership m]
  | createRun _, r => [.run r]
  | cancelRun .., r => [.run r]
  | deleteModule .., m => [.terraformModule m]
  | deleteVcsProvider .., p => [.vcsProvider p]

end Request

/-- What the store says to a request, if no fault is armed. -/
def Store.answer (s : Store) (q : Request) : Except Fault q.Reply :=
  ((Service.new s).perform q).1

namespace Service

/-- The service without the traces of calls: its log, and the faults that calls use up. -/
def core (s : Service) : Service :=
  { s with armed := [], log := [] }

theorem store_eq_of_core {s s' : Service} (h : s'.core = s.core) : s'.store = s.store :=
  congrArg (·.store) h

theorem record_core (s : Service) (c : Call) : (s.record c).2.core = s.core := by
  unfold record
  dsimp only
  split <;> rfl

theorem record_cases (s : Service) (c : Call) :
    (s.record c).1 = none ∧ (s.record c).2.armed = s.armed ∨
      ∃ f, (s.record c).1 = some f ∧ (s.record c).2.armed.length < s.armed.length := by
  unfold record
  dsimp only
  split
  · exact .inl ⟨rfl, rfl⟩
  · next a found =>
    have mem := List.mem_of_find?_eq_some found
    have shorter := List.length_eraseP_of_mem mem (List.find?_some found)
    have pos := List.length_pos_of_mem mem
    exact .inr ⟨a.fault, rfl, by simp only [shorter]; omega⟩

theorem perform_read {q : Request} (read : q.isRead) (s : Service) :
    s.perform q = (s.store.answer q, s) := by
  cases q <;> first | exact absurd read Bool.false_ne_true | rfl

inductive Answers {α : Type} (right : α) (fail : Fault → α) (s : Service) : α × Service → Prop
  | right {s' : Service} (core : s'.core = s.core) (armed : s'.armed = s.armed) :
      Answers right fail s (right, s')
  | failed {s' : Service} (f : Fault) (core : s'.core = s.core)
      (armed : s'.armed.length < s.armed.length) : Answers right fail s (fail f, s')

theorem Answers.spent {α : Type} {right : α} {fail : Fault → α} {s : Service} {out : α × Service}
    (a : Answers right fail s out) : out.2.core = s.core ∧
      (out.2.armed = s.armed ∨ out.2.armed.length < s.armed.length) := by
  cases a with
  | right core armed => exact ⟨core, .inl armed⟩
  | failed _ core less => exact ⟨core, .inr less⟩

theorem answer_answers {q : Request} (read : q.isRead) (s : Service) :
    Answers (s.store.answer q) .error s (s.answer q) := by
  have core := record_core s (.single q.method)
  have cases := record_cases s (.single q.method)
  unfold answer
  generalize s.record (.single q.method) = out at core cases
  obtain ⟨fault, s'⟩ := out
  rcases cases with ⟨rfl, armed⟩ | ⟨f, rfl, armed⟩
  · rw [← store_eq_of_core core]
    simpa only [perform_read read] using Answers.right core armed
  · exact .failed f core armed

theorem fetch_answers (kind : Kind) (ids : List String) (s : Service) :
    Answers (.ok (s.store.entity? kind)) .error s (fetch kind ids s) := by
  have core := record_core s (.batch kind ids)
  have cases := record_cases s (.batch kind ids)
  unfold fetch
  generalize s.record (.batch kind ids) = out at core cases
  obtain ⟨fault, s'⟩ := out
  rcases cases with ⟨rfl, armed⟩ | ⟨f, rfl, armed⟩
  · rw [← store_eq_of_core core]
    exact .right core armed
  · exact .failed f core armed

theorem write_core {α : Type} (s : Service) (r : Except Fault (α × Store)) :
    s.write r = ((s.core.write r).1, { (s.core.write r).2 with armed := s.armed, log := s.log }) := by
  rcases r with f | ⟨a, store⟩ <;> rfl

theorem perform_core (s : Service) (q : Request) : s.perform q =
    ((s.core.perform q).1, { (s.core.perform q).2 with armed := s.armed, log := s.log }) := by
  cases q <;> first | rfl | exact write_core s _

theorem armed_answer_le (s : Service) (q : Request) : (s.answer q).2.armed.length ≤ s.armed.length := by
  have cases := record_cases s (.single q.method)
  unfold answer
  generalize s.record (.single q.method) = out at cases
  obtain ⟨fault, s'⟩ := out
  rcases cases with ⟨rfl, armed⟩ | ⟨f, rfl, less⟩
  · dsimp only
    rw [perform_core s']
    exact Nat.le_of_eq (congrArg List.length armed)
  · exact Nat.le_of_lt less

theorem answer_eq {s : Service} {q : Request} (unhit : (s.answer q).2.armed.length = s.armed.length) :
    (s.answer q).1 = (s.core.perform q).1 ∧ (s.answer q).2.core = (s.core.perform q).2.core := by
  have core := record_core s (.single q.method)
  have cases := record_cases s (.single q.method)
  revert unhit
  unfold answer
  generalize s.record (.single q.method) = out at core cases
  obtain ⟨fault, s'⟩ := out
  dsimp only at core cases
  rcases cases with ⟨rfl, -⟩ | ⟨f, rfl, less⟩
  · intro _
    dsimp only
    rw [perform_core s', core]
    exact ⟨rfl, rfl⟩
  · intro unhit
    exact absurd unhit (Nat.ne_of_lt less)

end Service

end InfraGraph
