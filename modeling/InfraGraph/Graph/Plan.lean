import InfraGraph.Catalog.Request

/-!
Plans: computations that ask the service and load single entities, written without saying how loads
are gathered. A plan is a tree with a branch for each answer that may come back, so it can be run one
step at a time, next to others, or all at once.
-/

namespace InfraGraph.Graph

/-- The two registries a load may go to: that of the request, and that of one event of a feed. -/
inductive Scope
  | request
  | event
  deriving DecidableEq, Repr

inductive Plan (α : Type)
  | done (value : α)
  | ask (q : Request) (next : Except Fault q.Reply → Plan α)
  | load (scope : Scope) (kind : Kind) (type : EntityType) (id : String)
      (next : Except Fault (Option Entity) → Plan α)

namespace Plan

variable {α β : Type}

def bind : Plan α → (α → Plan β) → Plan β
  | done a, f => f a
  | ask q next, f => ask q fun r => bind (next r) f
  | load scope kind type id next, f => load scope kind type id fun r => bind (next r) f

instance : Monad Plan where
  pure := done
  bind := bind

end Plan

abbrev Resolver := ExceptT Fault Plan

namespace Resolver

variable {α : Type}

def ofExcept (r : Except Fault α) : Resolver α :=
  ExceptT.mk (.done r)

def ask (q : Request) : Resolver q.Reply :=
  ExceptT.mk (.ask q .done)

def attempt (r : Resolver α) : Resolver (Except Fault α) :=
  ExceptT.mk (Plan.bind r.run fun a => .done (.ok a))

def load (scope : Scope) (kind : Kind) (type : EntityType) (id : String) : Resolver (Option Entity) :=
  ExceptT.mk (.load scope kind type id .done)

def require (scope : Scope) (kind : Kind) (type : EntityType) (id : String) : Resolver Entity := do
  match ← load scope kind type id with
  | none => throw (.missing kind id)
  | some e => return e

end Resolver

end InfraGraph.Graph
