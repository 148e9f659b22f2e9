import InfraGraph.Catalog.Service
import InfraGraph.Graph.Work
import InfraGraph.Loader.Registry

/-!
Running work against the service. A pass goes over all of the work in order, and each part goes on
until a loader makes it wait; what a part asks for itself it gets at once. When all that is left is
waiting, the clock moves past the delay of the loaders and another pass begins. A load needs one pass
more than the work it belongs to, so as many passes as the selection is deep are enough.
-/

namespace InfraGraph.Graph

abbrev Loaders := Registry EntityType Kind Entity

/-- A loader that every registry gets: its kind, the type of its entities, and the kind whose batch
lookup it calls. -/
structure Registration where
  kind : Kind
  type : EntityType
  source : Kind
  deriving DecidableEq

namespace Loaders

def registrations : List Registration :=
  [⟨.user, .user, .user⟩,
    ⟨.serviceAccount, .serviceAccount, .serviceAccount⟩,
    ⟨.group, .group, .group⟩,
    ⟨.workspace, .workspace, .workspace⟩,
    ⟨.namespaceMembership, .namespaceMembership, .namespaceMembership⟩,
    ⟨.team, .team, .team⟩,
    ⟨.role, .role, .role⟩,
    ⟨.run, .run, .run⟩,
    ⟨.terraformModule, .terraformModule, .terraformModule⟩,
    ⟨.terraformModuleVersion, .terraformModuleVersion, .terraformModuleVersion⟩,
    ⟨.terraformProvider, .terraformProvider, .terraformProvider⟩,
    ⟨.vcsProvider, .vcsProvider, .vcsProvider⟩]

def new (s : LoaderSettings) : Loaders :=
  registrations.foldl (fun r row => r.register row.kind row.type row.source) (Registry.new s)

end Loaders

structure World where
  now : Nat
  service : Service
  request : Loaders
  event : Loaders

namespace World

def new (s : LoaderSettings) (service : Service) : World :=
  ⟨0, service, Loaders.new s, Loaders.new s⟩

def loaders (w : World) : Scope → Loaders
  | .request => w.request
  | .event => w.event

def setLoaders (w : World) (r : Loaders) : Scope → World
  | .request => { w with request := r }
  | .event => { w with event := r }

def ask (w : World) (q : Request) : Except Fault q.Reply × World :=
  let (reply, service) := w.service.answer q
  (reply, { w with service := service })

def enqueue (w : World) (scope : Scope) (kind : Kind) (type : EntityType) (id : String) :
    Except Fault (Ticket Entity × World) :=
  (w.loaders scope).enqueue kind type id |>.map fun (ticket, r) => (ticket, w.setLoaders r scope)

def await (w : World) (scope : Scope) (kind : Kind) (type : EntityType) (id : String)
    (ticket : Ticket Entity) : Option (Except Fault (Option Entity)) × World :=
  let (answer, r, service) :=
    (w.loaders scope).await Service.fetch w.now kind type id ticket w.service
  (answer, { w with service := service }.setLoaders r scope)

def perform {α : Type} (w : World) : Plan α → α × World
  | .done a => (a, w)
  | .ask q next =>
      let (reply, w) := w.ask q
      w.perform (next reply)
  | .load scope kind type id next =>
      let (answer, now, r, service) :=
        (w.loaders scope).load Service.fetch w.now w.service kind type id
      ({ w with now := now, service := service }.setLoaders r scope).perform (next answer)

def tick (w : World) : World :=
  { w with now := w.now + w.request.settings.delay }

end World

namespace Work

mutual

def isFinished : Work → Bool
  | value _ => true
  | failed _ => true
  | parts _ works => areFinished works
  | _ => false

def areFinished : List Work → Bool
  | [] => true
  | t :: ts => isFinished t && areFinished ts

end

mutual

def pass : Work → World → Work × World
  | value v, w => (value v, w)
  | failed f, w => (failed f, w)
  | ask q next, w =>
      let (reply, w) := w.ask q
      pass (next reply) w
  | load scope kind type id next, w =>
      match w.enqueue scope kind type id with
      | .error f => pass (next (.error f)) w
      | .ok (ticket, w) =>
          match w.await scope kind type id ticket with
          | (none, w) => (waiting scope kind type id ticket next, w)
          | (some answer, w) => pass (next answer) w
  | waiting scope kind type id ticket next, w =>
      match w.await scope kind type id ticket with
      | (none, w) => (waiting scope kind type id ticket next, w)
      | (some answer, w) => pass (next answer) w
  | parts assembly works, w =>
      let (works, w) := passAll works w
      (parts assembly works, w)

def passAll : List Work → World → List Work × World
  | [], w => ([], w)
  | t :: ts, w =>
      let (t, w) := pass t w
      let (ts, w) := passAll ts w
      (t :: ts, w)

end

def finish : (fuel : Nat) → Work → World → Work × World
  | 0, t, w => (t, w)
  | fuel + 1, t, w =>
      if t.isFinished then (t, w)
      else
        let (t, w) := t.pass w.tick
        finish fuel t w

def run (depth : Nat) (t : Work) (w : World) : Work × World :=
  let (t, w) := t.pass w
  t.finish depth w

end Work

end InfraGraph.Graph
