import InfraGraph.Proofs.Graph.Conduct

/-!
The exchanges of a plan with the service: each request that is made when the plan is carried out, with
what came back. They are the calls that the log gains.
-/

namespace InfraGraph

namespace Service

theorem log_record (s : Service) (c : Call) : (s.record c).2.log = s.log ++ [c] := by
  unfold record
  dsimp only
  split <;> rfl

theorem log_answer (s : Service) (q : Request) : (s.answer q).2.log = s.log ++ [.single q.method] := by
  have logged := log_record s (.single q.method)
  unfold answer
  generalize s.record (.single q.method) = out at logged
  obtain ⟨_ | f, s'⟩ := out
  · dsimp only
    rw [perform_core s']
    exact logged
  · exact logged

theorem log_fetch (kind : Kind) (ids : List String) (s : Service) :
    (fetch kind ids s).2.log = s.log ++ [.batch kind ids] := by
  have logged := log_record s (.batch kind ids)
  unfold fetch
  generalize s.record (.batch kind ids) = out at logged
  obtain ⟨_ | f, s'⟩ := out <;> exact logged

end Service

namespace Graph

variable {α β : Type}

structure Exchange where
  request : Request
  reply : Except Fault request.Reply

namespace Plan

def exchanges : Plan α → Service → List Exchange
  | done _, _ => []
  | ask q next, s => ⟨q, (s.answer q).1⟩ :: exchanges (next (s.answer q).1) (s.answer q).2
  | load _ kind _ id next, s => exchanges (next (.ok (s.store.entity? kind id))) s

theorem carryOut_bind (p : Plan α) (f : α → Plan β) (s : Service) :
    (p.bind f).carryOut s = (f (p.carryOut s).1).carryOut (p.carryOut s).2 := by
  induction p generalizing s with
  | done a => rfl
  | ask q next ih => exact ih _ _
  | load scope kind type id next ih => exact ih _ _

theorem exchanges_bind (p : Plan α) (f : α → Plan β) (s : Service) : (p.bind f).exchanges s =
    p.exchanges s ++ (f (p.carryOut s).1).exchanges (p.carryOut s).2 := by
  induction p generalizing s with
  | done a => rfl
  | ask q next ih => exact congrArg (⟨q, (s.answer q).1⟩ :: ·) (ih _ _)
  | load scope kind type id next ih => exact ih _ _

end Plan

namespace Resolver

theorem carryOut_bind_ok {r : Resolver α} {s s' : Service} {a : α}
    (h : r.run.carryOut s = (.ok a, s')) (f : α → Resolver β) :
    (r >>= f).run.carryOut s = (f a).run.carryOut s' := by
  have run : (r >>= f).run.carryOut s = _ := Plan.carryOut_bind r.run _ s
  rw [run, h]
  rfl

theorem carryOut_bind_error {r : Resolver α} {s s' : Service} {g : Fault}
    (h : r.run.carryOut s = (.error g, s')) (f : α → Resolver β) :
    (r >>= f).run.carryOut s = (.error g, s') := by
  have run : (r >>= f).run.carryOut s = _ := Plan.carryOut_bind r.run _ s
  rw [run, h]
  rfl

theorem carryOut_attempt (r : Resolver α) (s : Service) :
    r.attempt.run.carryOut s = (.ok (r.run.carryOut s).1, (r.run.carryOut s).2) :=
  Plan.carryOut_bind r.run _ s

theorem exchanges_attempt (r : Resolver α) (s : Service) :
    r.attempt.run.exchanges s = r.run.exchanges s :=
  (Plan.exchanges_bind r.run _ s).trans (List.append_nil _)

theorem exchanges_bind_ok {r : Resolver α} {s s' : Service} {a : α}
    (h : r.run.carryOut s = (.ok a, s')) (f : α → Resolver β) :
    (r >>= f).run.exchanges s = r.run.exchanges s ++ (f a).run.exchanges s' := by
  have run : (r >>= f).run.exchanges s = _ := Plan.exchanges_bind r.run _ s
  rw [run, h]
  rfl

theorem exchanges_bind_error {r : Resolver α} {s s' : Service} {g : Fault}
    (h : r.run.carryOut s = (.error g, s')) (f : α → Resolver β) :
    (r >>= f).run.exchanges s = r.run.exchanges s := by
  have run : (r >>= f).run.exchanges s = _ := Plan.exchanges_bind r.run _ s
  rw [run, h]
  exact List.append_nil _

end Resolver

end Graph

end InfraGraph
